import Mathlib
import RustNostr.NostrLmdb.QueryPlan

/-!
# Query results

What a query answers in a coherent store, whichever plan it selects.
-/

set_option autoImplicit false

namespace RustNostr.NostrLmdb.Lmdb

open Library BoundedScan

variable {db : Lmdb} {filter : DatabaseFilter} {limit : Option Nat}

/-! ## The selected plan -/

/-- The parts of the filter that a plan scans by are not empty. -/
def QueryFilterPattern.Restricts (filter : DatabaseFilter) : QueryFilterPattern → Prop
  | .ids => filter.ids.isEmpty = false
  | .authorsAndKinds => filter.authors.isEmpty = false ∧ filter.kinds.isEmpty = false
  | .authorsAndTags =>
      filter.authors.isEmpty = false ∧ filter.genericTags.entries.isEmpty = false
  | .authorKindsAndTags => filter.authors.isEmpty = false ∧ filter.kinds.isEmpty = false ∧
      filter.genericTags.entries.isEmpty = false
  | .kindsAndTags => filter.kinds.isEmpty = false ∧ filter.genericTags.entries.isEmpty = false
  | .tags => filter.genericTags.entries.isEmpty = false
  | .authors => filter.authors.isEmpty = false
  | .kinds => filter.kinds.isEmpty = false
  | .scraping => True

theorem fromFilter_restricts (filter : DatabaseFilter) :
    QueryFilterPattern.Restricts filter (.fromFilter filter) := by
  unfold QueryFilterPattern.fromFilter
  cases ids : filter.ids.isEmpty with
  | false => exact ids
  | true =>
      cases authors : filter.authors.isEmpty <;> cases kinds : filter.kinds.isEmpty <;>
        cases tags : filter.genericTags.entries.isEmpty <;>
        simp [QueryFilterPattern.Restricts, authors, kinds, tags]

/-! ## The cells of the plans -/

/-- Every matching event below the bound. -/
def everything (db : Lmdb) (filter : DatabaseFilter) (initial : OrderingKey) : Set OrderingKey :=
  db.cellOf filter initial fun _ => True

/-- No other match of the author and kind comes first. -/
def IsFirstOfKind (db : Lmdb) (filter : DatabaseFilter) (initial : OrderingKey)
    (event : DatabaseEvent) : Prop :=
  ∀ other, db.Stored other → filter.matchEvent other = true → other.pubkey = event.pubkey →
    other.kind = event.kind → other.orderingKey < initial →
    event.orderingKey ≤ other.orderingKey

/-- The matches that remain when only the first one of an author and replaceable
kind is taken. -/
def firstOfReplaceable (db : Lmdb) (filter : DatabaseFilter) (initial : OrderingKey) :
    Set OrderingKey :=
  db.cellOf filter initial fun event =>
    (Kind.fromU16 event.kind).isReplaceable = true → db.IsFirstOfKind filter initial event

private theorem eq_everything {initial : OrderingKey} {cells : Set OrderingKey}
    (sound : ∀ key ∈ cells, ∃ rows, key ∈ db.cellOf filter initial rows)
    (complete : ∀ event, db.Stored event → filter.matchEvent event = true →
      event.orderingKey < initial → event.orderingKey ∈ cells) :
    cells = db.everything filter initial := by
  ext key
  constructor
  · intro member
    obtain ⟨rows, event, stored, wants, _, same, below⟩ := sound key member
    exact ⟨event, stored, wants, trivial, same, below⟩
  · intro member
    obtain ⟨event, stored, wants, _, same, below⟩ := member
    subst same
    exact complete event stored wants below

theorem hasTagPrefix_of_mem {event : DatabaseEvent} {tagName : SingleLetterTag} {tagValue : String}
    (member : (tagName, tagValue) ∈ event.tags.filterMap extract) :
    HasTagPrefix tagName tagValue event :=
  ⟨(tagName, tagValue), member, rfl⟩

private theorem exists_tag {event : DatabaseEvent} (wants : filter.matchEvent event = true)
    (restricted : filter.genericTags.entries.isEmpty = false) :
    ∃ tag ∈ filter.genericTags.entries, ∃ tagValue ∈ tag.2.elems,
      HasTagPrefix tag.1 tagValue event := by
  cases entries : filter.genericTags.entries with
  | nil =>
      rw [entries] at restricted
      cases restricted
  | cons tag rest =>
      have member : tag ∈ filter.genericTags.entries := entries ▸ List.mem_cons_self
      obtain ⟨tagValue, inSet, inTags⟩ := DatabaseFilter.exists_tag wants member
      exact ⟨tag, List.mem_cons_self, tagValue, inSet, hasTagPrefix_of_mem inTags⟩

/-- Author, kind and tag value of a match are among those of the filter. -/
theorem intersections_eq_everything (byAuthor : filter.authors.isEmpty = false)
    (byKind : filter.kinds.isEmpty = false) (byTag : filter.genericTags.entries.isEmpty = false)
    (initial : OrderingKey) :
    {key | ∃ author ∈ filter.authors, key ∈ {key | ∃ kind ∈ filter.kinds,
      key ∈ {key | ∃ tag ∈ filter.genericTags.entries, ∃ tagValue ∈ tag.2.elems,
        key ∈ db.cellOf filter initial fun event =>
          event.pubkey = author ∧ event.kind = kind ∧ HasTagPrefix tag.1 tagValue event}}} =
      db.everything filter initial := by
  apply eq_everything
  · intro key member
    obtain ⟨author, _, kind, _, tag, _, tagValue, _, found⟩ := member
    exact ⟨_, found⟩
  · intro event stored wants below
    obtain ⟨tag, inFilter, tagValue, inSet, tagged⟩ := exists_tag wants byTag
    exact ⟨event.pubkey, DatabaseFilter.mem_authors wants byAuthor,
      event.kind, DatabaseFilter.mem_kinds wants byKind, tag, inFilter, tagValue, inSet,
      event, stored, wants, ⟨rfl, rfl, tagged⟩, rfl, below⟩

section Plans

variable (coherent : db.Coherent) (since : Timestamp)

include coherent

theorem queryByAuthors_covers (restricted : filter.authors.isEmpty = false) :
    db.Covers filter limit (sinceBound since) since
      (db.queryByAuthors filter (filter.until_.getD .max) limit)
      (db.everything filter (sinceBound since)) := by
  refine (Covers.foldlM fun author _ => Covers.sorted false (acIter_lists coherent author)
    fun event wants => DatabaseFilter.le_until wants).congr (eq_everything ?_ ?_)
  · intro key member
    obtain ⟨author, _, found⟩ := member
    exact ⟨_, found⟩
  · intro event stored wants below
    exact ⟨event.pubkey, DatabaseFilter.mem_authors wants restricted,
      event, stored, wants, rfl, rfl, below⟩

theorem queryByKinds_covers (restricted : filter.kinds.isEmpty = false) :
    db.Covers filter limit (sinceBound since) since
      (db.queryByKinds filter (filter.until_.getD .max) limit)
      (db.everything filter (sinceBound since)) := by
  refine (Covers.foldlM fun kind _ => Covers.sorted false (kcIter_lists coherent kind)
    fun event wants => DatabaseFilter.le_until wants).congr (eq_everything ?_ ?_)
  · intro key member
    obtain ⟨kind, _, found⟩ := member
    exact ⟨_, found⟩
  · intro event stored wants below
    exact ⟨event.kind, DatabaseFilter.mem_kinds wants restricted,
      event, stored, wants, rfl, rfl, below⟩

theorem queryByTags_covers (restricted : filter.genericTags.entries.isEmpty = false) :
    db.Covers filter limit (sinceBound since) since
      (db.queryByTags filter (filter.until_.getD .max) limit)
      (db.everything filter (sinceBound since)) := by
  refine (Covers.forTagValues fun tagName set _ tagValue _ =>
    Covers.sorted false (tcIter_lists coherent tagName tagValue)
      fun event wants => DatabaseFilter.le_until wants).congr (eq_everything ?_ ?_)
  · intro key member
    obtain ⟨tag, _, tagValue, _, found⟩ := member
    exact ⟨_, found⟩
  · intro event stored wants below
    obtain ⟨tag, inFilter, tagValue, inSet, tagged⟩ := exists_tag wants restricted
    exact ⟨tag, inFilter, tagValue, inSet, event, stored, wants, tagged, rfl, below⟩

theorem queryByAuthorsAndTags_covers (byAuthor : filter.authors.isEmpty = false)
    (byTag : filter.genericTags.entries.isEmpty = false) :
    db.Covers filter limit (sinceBound since) since
      (db.queryByAuthorsAndTags filter (filter.until_.getD .max) limit)
      (db.everything filter (sinceBound since)) := by
  refine (Covers.foldlM fun author _ => Covers.forTagValues fun tagName set _ tagValue _ =>
    Covers.sorted false (atcIter_lists coherent author tagName tagValue)
      fun event wants => DatabaseFilter.le_until wants).congr (eq_everything ?_ ?_)
  · intro key member
    obtain ⟨author, _, tag, _, tagValue, _, found⟩ := member
    exact ⟨_, found⟩
  · intro event stored wants below
    obtain ⟨tag, inFilter, tagValue, inSet, tagged⟩ := exists_tag wants byTag
    exact ⟨event.pubkey, DatabaseFilter.mem_authors wants byAuthor, tag, inFilter, tagValue, inSet,
      event, stored, wants, ⟨rfl, tagged⟩, rfl, below⟩

theorem queryByKindsAndTags_covers (byKind : filter.kinds.isEmpty = false)
    (byTag : filter.genericTags.entries.isEmpty = false) :
    db.Covers filter limit (sinceBound since) since
      (db.queryByKindsAndTags filter (filter.until_.getD .max) limit)
      (db.everything filter (sinceBound since)) := by
  refine (Covers.foldlM fun kind _ => Covers.forTagValues fun tagName set _ tagValue _ =>
    Covers.sorted false (ktcIter_lists coherent kind tagName tagValue)
      fun event wants => DatabaseFilter.le_until wants).congr (eq_everything ?_ ?_)
  · intro key member
    obtain ⟨kind, _, tag, _, tagValue, _, found⟩ := member
    exact ⟨_, found⟩
  · intro event stored wants below
    obtain ⟨tag, inFilter, tagValue, inSet, tagged⟩ := exists_tag wants byTag
    exact ⟨event.kind, DatabaseFilter.mem_kinds wants byKind, tag, inFilter, tagValue, inSet,
      event, stored, wants, ⟨rfl, tagged⟩, rfl, below⟩

theorem queryByAuthorsKindsAndTags_covers (byAuthor : filter.authors.isEmpty = false)
    (byKind : filter.kinds.isEmpty = false) (byTag : filter.genericTags.entries.isEmpty = false)
    (orderly : ∀ author ∈ filter.authors, ∀ kind ∈ filter.kinds,
      ∀ tag ∈ filter.genericTags.entries, ∀ tagValue ∈ tag.2.elems, ∀ count, limit = some count →
        db.IntersectionOrdered filter count author kind tag.1 tagValue ∨
          Fits count (db.matching filter)) :
    db.Covers filter limit (sinceBound since) since
      (db.queryByAuthorsKindsAndTags filter (filter.until_.getD .max) limit)
      (db.everything filter (sinceBound since)) := by
  refine (Covers.foldlM fun author authorMember => Covers.foldlM fun kind kindMember =>
    Covers.from_state fun start later => Covers.forTagValues fun tagName set member tagValue inSet =>
      Covers.intersection coherent later author kind tagName tagValue
        (fun event wants => DatabaseFilter.le_until wants)
        (orderly author authorMember kind kindMember (tagName, set) member tagValue inSet)).congr
    (intersections_eq_everything byAuthor byKind byTag _)

theorem queryByAuthorsAndKinds_covers (byAuthor : filter.authors.isEmpty = false)
    (byKind : filter.kinds.isEmpty = false) :
    db.Covers filter limit (sinceBound since) since
      (db.queryByAuthorsAndKinds filter (filter.until_.getD .max) limit)
      (db.firstOfReplaceable filter (sinceBound since)) := by
  refine (Covers.foldlM fun author _ => Covers.foldlM fun kind _ =>
    Covers.sorted (Kind.fromU16 kind).isReplaceable (akcIter_lists coherent author kind)
      fun event wants => DatabaseFilter.le_until wants).congr ?_
  ext key
  constructor
  · intro member
    obtain ⟨author, _, kind, _, found⟩ := member
    cases replaceable : (Kind.fromU16 kind).isReplaceable with
    | false =>
        rw [replaceable] at found
        obtain ⟨event, stored, wants, ⟨_, ofKind⟩, same, below⟩ := found
        refine ⟨event, stored, wants, fun isReplaceable => ?_, same, below⟩
        rw [ofKind, replaceable] at isReplaceable
        cases isReplaceable
    | true =>
        rw [replaceable] at found
        obtain ⟨⟨event, stored, wants, ⟨owner, ofKind⟩, same, below⟩, first⟩ := found
        refine ⟨event, stored, wants, fun _ => ?_, same, below⟩
        intro other otherStored otherWants otherOwner otherKind otherBelow
        rw [same]
        exact first other.orderingKey ⟨other, otherStored, otherWants,
          ⟨otherOwner.trans owner, otherKind.trans ofKind⟩, rfl, otherBelow⟩
  · intro member
    obtain ⟨event, stored, wants, first, same, below⟩ := member
    refine ⟨event.pubkey, DatabaseFilter.mem_authors wants byAuthor,
      event.kind, DatabaseFilter.mem_kinds wants byKind, ?_⟩
    have inCell : key ∈ db.cellOf filter (sinceBound since) fun other =>
        other.pubkey = event.pubkey ∧ other.kind = event.kind :=
      ⟨event, stored, wants, ⟨rfl, rfl⟩, same, below⟩
    cases replaceable : (Kind.fromU16 event.kind).isReplaceable with
    | false => exact inCell
    | true =>
        refine ⟨inCell, fun other otherMember => ?_⟩
        obtain ⟨otherEvent, otherStored, otherWants, ⟨otherOwner, otherKind⟩, otherSame,
          otherBelow⟩ := otherMember
        rw [← same, ← otherSame]
        exact first replaceable otherEvent otherStored otherWants otherOwner otherKind
          (otherSame ▸ otherBelow)

end Plans

/-! ## Answers -/

/-- What a query with the filter can answer. Only the plan by IDs does not scan
a range. -/
def answerable (db : Lmdb) (filter : DatabaseFilter) : Set OrderingKey :=
  match QueryFilterPattern.fromFilter filter with
  | .ids => db.matching filter
  | .authorsAndKinds => db.firstOfReplaceable filter (sinceBound (filter.since.getD .min))
  | _ => db.everything filter (sinceBound (filter.since.getD .min))

theorem answerable_subset : db.answerable filter ⊆ db.matching filter := by
  unfold answerable
  split
  · exact Set.Subset.refl _
  · exact cellOf_matching
  · exact cellOf_matching

/-- These events, cut at the limit, are the first answers. -/
structure Answers (db : Lmdb) (limit : Option Nat) (answers : Set OrderingKey)
    (events : List DatabaseEvent) : Prop where
  stored : ∀ event ∈ events, db.Stored event
  sorted : (events.map DatabaseEvent.orderingKey).Pairwise (· < ·)
  sound : ∀ key ∈ events.map DatabaseEvent.orderingKey, key ∈ answers
  settled : ∀ key ∈ answers, Settled limit {key | key ∈ events.map DatabaseEvent.orderingKey} key

/-- The limit cannot make a query stop before it has seen a newer match: all
matches fit, or the plan does not stop within a list that is out of order. -/
def LimitRespectsOrder (db : Lmdb) (filter : DatabaseFilter) (limit : Nat) : Prop :=
  limit = 0 ∨ (db.events.values.filter filter.matchEvent).length ≤ limit ∨
    match QueryFilterPattern.fromFilter filter with
    | .ids => False
    | .authorKindsAndTags =>
        ∀ author ∈ filter.authors, ∀ kind ∈ filter.kinds,
          ∀ tag ∈ filter.genericTags.entries, ∀ tagValue ∈ tag.2.elems,
            db.IntersectionOrdered filter limit author kind tag.1 tagValue
    | _ => True

theorem fits_of_few (coherent : db.Coherent) {count : Nat}
    (few : (db.events.values.filter filter.matchEvent).length ≤ count) :
    Fits count (db.matching filter) := by
  refine ⟨(db.events.values.filter filter.matchEvent).map DatabaseEvent.orderingKey,
    fun key member => ?_, by rwa [List.length_map]⟩
  obtain ⟨event, stored, wants, same⟩ := member
  exact mem_map_orderingKey_filter.mpr ⟨event, (mem_values_iff coherent).mpr stored, wants, same⟩

theorem values_map_orderingKey {output : Output} (faithful : db.Faithful output) :
    output.values.map DatabaseEvent.orderingKey = output.entries.map Prod.fst := by
  rw [SortedTable.values, List.map_map]
  refine List.map_congr_left fun entry member => ?_
  exact (faithful entry.1 entry.2 (SortedTable.get?_eq_some.mpr member)).2

theorem mem_values_map_orderingKey {output : Output} (faithful : db.Faithful output)
    {key : OrderingKey} :
    key ∈ output.values.map DatabaseEvent.orderingKey ↔ key ∈ collected output := by
  rw [values_map_orderingKey faithful, List.mem_map]
  constructor
  · intro found
    obtain ⟨entry, member, same⟩ := found
    exact ⟨entry.2, same ▸ SortedTable.get?_eq_some.mpr member⟩
  · intro found
    obtain ⟨event, present⟩ := found
    exact ⟨(key, event), SortedTable.get?_eq_some.mp present, rfl⟩

theorem Faithful.answers {output : Output} (faithful : db.Faithful output)
    {answers : Set OrderingKey} (sound : collected output ⊆ answers)
    (settled : ∀ key ∈ answers, Settled limit (collected output) key) :
    db.Answers limit answers output.values where
  stored event member := by
    obtain ⟨key, present⟩ := SortedTable.mem_values.mp member
    exact (faithful key event present).1
  sorted := by
    rw [values_map_orderingKey faithful]
    exact List.pairwise_map.mpr output.sorted
  sound key member := sound ((mem_values_map_orderingKey faithful).mp member)
  settled key member := (settled key member).mono fun other collected =>
    (mem_values_map_orderingKey faithful).mpr collected

theorem Covers.answers {since : Timestamp} {plan : QueryState → Except StoreError QueryState}
    {answers : Set OrderingKey}
    (covers : db.Covers filter limit (sinceBound since) since plan answers) :
    ∃ events, (plan { since, output := .empty }).map
        (fun state => takeLimit limit state.output.values) = .ok (takeLimit limit events) ∧
      db.Answers limit answers events := by
  have start : db.Reached filter limit (sinceBound since) { since, output := .empty } ∅ := {
    faithful := faithful_empty db
    progress := collected_empty ▸ Progress.start limit (db.matching filter) (sinceBound since) }
  obtain ⟨final, planned, reached, _⟩ := covers _ ∅ (le_refl _) start
  rw [Set.empty_union] at reached
  refine ⟨final.output.values, ?_, reached.faithful.answers reached.progress.sound
    reached.progress.settled⟩
  rw [planned]
  rfl

/-- The plan by IDs collects the matches among its IDs until the limit is
reached. -/
theorem queryByIds_collects (coherent : db.Coherent) {ids : List EventId} {output : Output}
    (faithful : db.Faithful output) (sound : collected output ⊆ db.matching filter) :
    db.Faithful (db.queryByIds filter limit ids output) ∧
    collected (db.queryByIds filter limit ids output) ⊆ db.matching filter ∧
    collected output ⊆ collected (db.queryByIds filter limit ids output) ∧
    ((∃ count, limit = some count ∧ count ≤ (db.queryByIds filter limit ids output).len) ∨
      ∀ event, db.Stored event → filter.matchEvent event = true → event.id ∈ ids →
        event.orderingKey ∈ collected (db.queryByIds filter limit ids output)) := by
  induction ids generalizing output with
  | nil =>
      exact ⟨faithful, sound, Set.Subset.refl _, .inr fun _ _ _ member => by cases member⟩
  | cons id ids ih =>
      unfold queryByIds
      split
      · next stops =>
          refine ⟨faithful, sound, Set.Subset.refl _, .inl ?_⟩
          cases limit with
          | none => cases stops
          | some count => exact ⟨count, rfl, by simpa using stops⟩
      · cases found : db.getEventById id with
        | none =>
            obtain ⟨faithfulFinal, soundFinal, grows, complete⟩ := ih faithful sound
            refine ⟨faithfulFinal, soundFinal, grows, complete.imp_right ?_⟩
            intro complete event stored wants member
            cases List.mem_cons.mp member with
            | inl same =>
                rw [← same, getEventById, stored] at found
                cases found
            | inr member => exact complete event stored wants member
        | some event =>
            have stored := coherent.stored found
            have identity : event.id = id := coherent.keyed id event found
            dsimp only
            split
            · next wants =>
                have grown := collected_insert output event
                have soundNext : collected (output.insert event) ⊆ db.matching filter := by
                  rw [grown]
                  refine Set.union_subset sound (Set.singleton_subset_iff.mpr ?_)
                  exact ⟨event, stored, wants, rfl⟩
                obtain ⟨faithfulFinal, soundFinal, grows, complete⟩ :=
                  ih (faithful.insert stored) soundNext
                rw [grown] at grows
                refine ⟨faithfulFinal, soundFinal, Set.subset_union_left.trans grows,
                  complete.imp_right ?_⟩
                intro complete other otherStored otherWants member
                cases List.mem_cons.mp member with
                | inl same =>
                    obtain rfl : other = event := otherStored.unique stored (same.trans identity.symm)
                    exact grows (.inr rfl)
                | inr member => exact complete other otherStored otherWants member
            · next rejects =>
                obtain ⟨faithfulFinal, soundFinal, grows, complete⟩ := ih faithful sound
                refine ⟨faithfulFinal, soundFinal, grows, complete.imp_right ?_⟩
                intro complete other otherStored otherWants member
                cases List.mem_cons.mp member with
                | inl same =>
                    obtain rfl : other = event := otherStored.unique stored (same.trans identity.symm)
                    exact absurd otherWants rejects
                | inr member => exact complete other otherStored otherWants member

theorem queryByIds_answers (coherent : db.Coherent) (restricted : filter.ids.isEmpty = false)
    (few : ∀ count, limit = some count → count = 0 ∨
      (db.events.values.filter filter.matchEvent).length ≤ count) :
    db.Answers limit (db.matching filter) (db.queryByIds filter limit filter.ids .empty).values := by
  obtain ⟨faithful, sound, _, complete⟩ := queryByIds_collects coherent (faithful_empty db) (fun key found => by
      obtain ⟨event, present⟩ := found
      cases present)
  refine faithful.answers sound fun key member => ?_
  cases complete with
  | inr complete =>
      obtain ⟨event, stored, wants, same⟩ := member
      exact .inl (same ▸ complete event stored wants (DatabaseFilter.mem_ids wants restricted))
  | inl stopped =>
      obtain ⟨count, limited, reached⟩ := stopped
      cases few count limited with
      | inl zero =>
          rw [limited, zero]
          exact settled_zero _ key
      | inr few =>
          -- As many as there are matches were collected, so all of them were.
          obtain ⟨all, inAll, short⟩ := fits_of_few coherent few
          have keys := values_map_orderingKey faithful
          have distinct : ((db.queryByIds filter limit filter.ids .empty).entries.map
              Prod.fst).Nodup :=
            (List.pairwise_map.mpr (SortedTable.sorted _)).imp ne_of_lt
          have subset : (db.queryByIds filter limit filter.ids .empty).entries.map Prod.fst ⊆ all :=
            fun other otherMember => inAll other (sound
              ((mem_values_map_orderingKey faithful).mp (keys ▸ otherMember)))
          have perm := (distinct.subperm subset).perm_of_length_le (by
            rw [List.length_map]
            exact short.trans reached)
          refine .inl ((mem_values_map_orderingKey faithful).mp ?_)
          rw [keys]
          exact perm.mem_iff.mpr (inAll key member)

theorem queryByScraping_answers (coherent : db.Coherent) :
    ∃ events, db.queryByScraping filter (filter.since.getD .min) (filter.until_.getD .max) limit =
        takeLimit limit events ∧
      db.Answers limit (db.everything filter (sinceBound (filter.since.getD .min))) events := by
  obtain ⟨events, listed, sorted⟩ :=
    ciIter_lists coherent (filter.since.getD .min) (filter.until_.getD .max)
  refine ⟨events.filter filter.matchEvent, ?_, ?_⟩
  · rw [queryByScraping, listed.ids_eq,
      filterMap_getEventById fun event member => ((listed.mem event).mp member).1]
  have members : ∀ key, key ∈ (events.filter filter.matchEvent).map DatabaseEvent.orderingKey ↔
      key ∈ db.everything filter (sinceBound (filter.since.getD .min)) := by
    intro key
    rw [mem_map_orderingKey_filter]
    constructor
    · intro found
      obtain ⟨event, member, wants, same⟩ := found
      obtain ⟨stored, _, _, below⟩ := (listed.mem event).mp member
      exact ⟨event, stored, wants, trivial, same, same ▸ below⟩
    · intro found
      obtain ⟨event, stored, wants, _, same, below⟩ := found
      exact ⟨event, (listed.mem event).mpr
        ⟨stored, trivial, DatabaseFilter.le_until wants, same ▸ below⟩, wants, same⟩
  exact {
    stored := fun event member => ((listed.mem event).mp (List.mem_filter.mp member).1).1
    sorted := List.pairwise_map.mpr (sorted.sublist List.filter_sublist)
    sound := fun key member => (members key).mp member
    settled := fun key member => .inl ((members key).mpr member) }

theorem no_match_outside {order : HashOrder} {request : Filter}
    (empty : sinceAfterUntil request = true) (event : DatabaseEvent) :
    (DatabaseFilter.ofFilter order request).matchEvent event ≠ true := by
  intro wants
  have late := DatabaseFilter.since_le wants
  have early := DatabaseFilter.le_until wants
  simp only [DatabaseFilter.ofFilter] at late early
  unfold sinceAfterUntil at empty
  split at empty
  · next since until_ sinceEq untilEq =>
      rw [sinceEq, Option.getD_some] at late
      rw [untilEq, Option.getD_some] at early
      exact absurd (of_decide_eq_true empty) (not_lt.mpr (late.trans early))
  · cases empty

/-- Every query succeeds, with the first answers in order. -/
theorem query_answers (coherent : db.Coherent) (order : HashOrder) (request : Filter)
    (exact : ∀ count, request.limit = some count →
      db.LimitRespectsOrder (DatabaseFilter.ofFilter order request) count) :
    ∃ events, db.query order request = .ok (takeLimit request.limit events) ∧
      db.Answers request.limit (db.answerable (DatabaseFilter.ofFilter order request)) events := by
  unfold query
  split
  · next empty =>
      refine ⟨[], by cases request.limit <;> simp [takeLimit], ?_⟩
      exact {
        stored := fun event member => by cases member
        sorted := .nil
        sound := fun key member => by cases member
        settled := fun key member => by
          obtain ⟨event, _, wants, _⟩ := answerable_subset member
          exact absurd wants (no_match_outside empty event) }
  have filterSince : (DatabaseFilter.ofFilter order request).since = request.since := rfl
  have filterUntil : (DatabaseFilter.ofFilter order request).until_ = request.until_ := rfl
  generalize DatabaseFilter.ofFilter order request = filter at *
  rw [← filterSince, ← filterUntil]
  unfold answerable
  dsimp only
  have restricted := fromFilter_restricts filter
  cases pattern : QueryFilterPattern.fromFilter filter with
  | ids =>
      rw [pattern] at restricted
      refine ⟨_, rfl, queryByIds_answers coherent restricted fun count limited => ?_⟩
      have exactHere := exact count limited
      unfold LimitRespectsOrder at exactHere
      rw [pattern] at exactHere
      exact exactHere.imp_right fun few => few.resolve_right id
  | authorsAndKinds =>
      rw [pattern] at restricted
      exact (queryByAuthorsAndKinds_covers coherent _ restricted.1 restricted.2).answers
  | authorsAndTags =>
      rw [pattern] at restricted
      exact (queryByAuthorsAndTags_covers coherent _ restricted.1 restricted.2).answers
  | authorKindsAndTags =>
      rw [pattern] at restricted
      refine (queryByAuthorsKindsAndTags_covers coherent _ restricted.1 restricted.2.1
        restricted.2.2 ?_).answers
      intro author authorMember kind kindMember tag tagMember tagValue inSet count limited
      have exactHere := exact count limited
      unfold LimitRespectsOrder at exactHere
      rw [pattern] at exactHere
      cases exactHere with
      | inl zero =>
          refine .inl fun front member => ?_
          rw [zero, List.take_zero] at member
          cases member
      | inr exactHere =>
          cases exactHere with
          | inl few => exact .inr (fits_of_few coherent few)
          | inr ordered =>
              exact .inl (ordered author authorMember kind kindMember tag tagMember tagValue inSet)
  | kindsAndTags =>
      rw [pattern] at restricted
      exact (queryByKindsAndTags_covers coherent _ restricted.1 restricted.2).answers
  | tags =>
      rw [pattern] at restricted
      exact (queryByTags_covers coherent _ restricted).answers
  | authors =>
      rw [pattern] at restricted
      exact (queryByAuthors_covers coherent _ restricted).answers
  | kinds =>
      rw [pattern] at restricted
      exact (queryByKinds_covers coherent _ restricted).answers
  | scraping =>
      obtain ⟨events, scraped, answers⟩ := @queryByScraping_answers db filter request.limit coherent
      exact ⟨events, congrArg Except.ok scraped, answers⟩

/-! ## Limited and unlimited queries -/

theorem fromFilter_ofFilter (order order' : HashOrder) (request : Filter) :
    QueryFilterPattern.fromFilter (DatabaseFilter.ofFilter order request) =
      .fromFilter (DatabaseFilter.ofFilter order' request) := by
  have blank : ∀ {α : Type} (set : List α),
      (order.arrange set).isEmpty = (order'.arrange set).isEmpty := fun set =>
    ((order.perm set).trans (order'.perm set).symm).isEmpty_eq
  simp only [QueryFilterPattern.fromFilter, DatabaseFilter.ofFilter, blank]
  rfl

theorem answerable_ofFilter (db : Lmdb) (order order' : HashOrder) (request : Filter) :
    db.answerable (DatabaseFilter.ofFilter order request) =
      db.answerable (DatabaseFilter.ofFilter order' request) := by
  simp only [answerable, fromFilter_ofFilter order order', matching, firstOfReplaceable,
    everything, cellOf, IsFirstOfKind, DatabaseFilter.matchEvent_ofFilter order order']
  rfl

theorem LimitRespectsOrder.ofFilter {count : Nat} {order : HashOrder} {request : Filter}
    (respects : db.LimitRespectsOrder (DatabaseFilter.ofFilter order request) count)
    (order' : HashOrder) :
    db.LimitRespectsOrder (DatabaseFilter.ofFilter order' request) count := by
  unfold LimitRespectsOrder at respects ⊢
  simp only [IntersectionOrdered, intersectionMatches, fromFilter_ofFilter order' order,
    DatabaseFilter.matchEvent_ofFilter order' order]
  refine respects.imp_right fun respects => respects.imp_right fun respects => ?_
  split
  · next pattern =>
      rw [pattern] at respects
      exact respects
  · next pattern =>
      rw [pattern] at respects
      exact fun author authorMember kind kindMember =>
        respects author (DatabaseFilter.mem_arrange order |>.mpr
          (DatabaseFilter.mem_arrange order' |>.mp authorMember)) kind
          (DatabaseFilter.mem_arrange order |>.mpr
            (DatabaseFilter.mem_arrange order' |>.mp kindMember))
  · trivial

private theorem eq_of_map_orderingKey {left right : List DatabaseEvent}
    (leftStored : ∀ event ∈ left, db.Stored event) (rightStored : ∀ event ∈ right, db.Stored event)
    (keys : left.map DatabaseEvent.orderingKey = right.map DatabaseEvent.orderingKey) :
    left = right := by
  have ids {events : List DatabaseEvent} :
      events.map DatabaseEvent.id =
        (events.map DatabaseEvent.orderingKey).map fun key => (ofLex key).2 := by
    rw [List.map_map]
    rfl
  rw [← filterMap_getEventById leftStored, ← filterMap_getEventById rightStored, ids, ids, keys]

theorem Answers.take_eq {limited all : List DatabaseEvent} {count : Nat}
    {answers : Set OrderingKey} (limitedAnswers : db.Answers (some count) answers limited)
    (allAnswers : db.Answers none answers all) : limited.take count = all.take count := by
  have complete : ∀ key ∈ answers, key ∈ all.map DatabaseEvent.orderingKey :=
    fun key member => by
      have settled := settled_none.mp (allAnswers.settled key member)
      exact settled
  refine eq_of_map_orderingKey
    (fun event member => limitedAnswers.stored event (List.mem_of_mem_take member))
    (fun event member => allAnswers.stored event (List.mem_of_mem_take member)) ?_
  rw [List.map_take, List.map_take]
  exact take_eq_of_settled limitedAnswers.sorted allAnswers.sorted
    (fun key member => complete key (limitedAnswers.sound key member))
    fun key member => limitedAnswers.settled key (allAnswers.sound key member)

theorem query_of_ids {order : HashOrder} {request : Filter}
    (byIds : QueryFilterPattern.fromFilter (DatabaseFilter.ofFilter order request) = .ids)
    (inOrder : sinceAfterUntil request = false) :
    db.query order request = .ok (takeLimit request.limit (db.queryByIds
      (DatabaseFilter.ofFilter order request) request.limit
      (DatabaseFilter.ofFilter order request).ids .empty).values) := by
  unfold query
  rw [inOrder, if_neg Bool.false_ne_true]
  dsimp only
  rw [byIds]

end RustNostr.NostrLmdb.Lmdb
