import Mathlib
import RustNostr.NostrLmdb.QueryRuns
import RustNostr.NostrMemory.Runs

/-!
# Queries against the match function

A query answers with the stored matches in their order, cut at the limit, unless
it is answered by the lookup of one address, which asks nothing of the event but
its first `d` value.
-/

set_option autoImplicit false

namespace RustNostr.NostrMemory

open Library EventSet

/-- The stored events that match the filter, in order, up to the limit. -/
def MemoryStore.matching (store : MemoryStore) (filter : Filter) : List Event :=
  MemoryStore.takeLimit filter.limit
    (store.events.values.filter fun event => filter.matchEvent event {})

/-- The query answers with the first of the stored events that match, newest
first and then by ID, as many as the limit allows. -/
def MemoryStore.AnswersMatches (store : MemoryStore) (filter : Filter) : Prop :=
  ∃ found, Ordered found ∧
    (∀ event, event ∈ found ↔ store.Holds event ∧ filter.matchEvent event {} = true) ∧
    store.query filter = MemoryStore.takeLimit filter.limit found

/-! ## The pattern of a filter -/

/-- Whichever pattern is chosen for a filter, and why. -/
inductive QueryPattern.Chosen (filter : Filter) : QueryPattern → Prop where
  | author {pubkey : PublicKey} :
      elements filter.kinds = [] → elements filter.authors = [pubkey] →
      elements filter.ids = [] → filter.genericTags.len = 0 → filter.search = none →
      Chosen filter (.author { author := pubkey, since := filter.since, until_ := filter.until_ })
  | kindAuthor {kind : UInt16} {pubkey : PublicKey} :
      elements filter.kinds = [kind] → elements filter.authors = [pubkey] →
      elements filter.ids = [] → filter.genericTags.len = 0 → filter.search = none →
      Chosen filter (.kindAuthor
        { kind, author := pubkey, since := filter.since, until_ := filter.until_ })
  | paramReplaceable {kind : UInt16} {pubkey : PublicKey} {identifier : String} :
      elements filter.kinds = [kind] → elements filter.authors = [pubkey] →
      elements filter.ids = [] → filter.search = none →
      (Kind.fromU16 kind).isAddressable = true →
      Chosen filter (.paramReplaceable
        { kind, author := pubkey, identifier, since := filter.since, until_ := filter.until_ })
  | generic : Chosen filter (.generic filter)

theorem QueryPattern.ofFilter_chosen (filter : Filter) :
    QueryPattern.Chosen filter (.ofFilter filter) := by
  unfold QueryPattern.ofFilter
  dsimp only
  split
  next kinds authors ids tags _ search => exact .author kinds authors ids tags search
  next kinds authors ids tags _ search => exact .kindAuthor kinds authors ids tags search
  next kinds authors ids _ search =>
    split
    next addressable => exact .paramReplaceable kinds authors ids search addressable
    next => exact .generic
  next => exact .generic

theorem setMatch_eq {α : Type} [LinearOrder α] (set : Option (SortedSet α)) (element : α) :
    Filter.setMatch set element =
      ((elements set).isEmpty || (elements set).contains element) := by
  cases set with
  | none => rfl
  | some set =>
      simp [Filter.setMatch, elements, SortedSet.isEmpty, SortedSet.elems, List.isEmpty_map]

theorem tagMatch_of_len {filter : Filter} (none_asked : filter.genericTags.len = 0)
    (event : Event) : filter.tagMatch event = true := by
  have nothing : filter.genericTags.entries = [] := List.length_eq_zero_iff.mp none_asked
  simp [Filter.tagMatch, nothing]

namespace MemoryStore

variable {store : MemoryStore} {filter : Filter}

theorem matchEvent_default (filter : Filter) (event : Event) :
    filter.matchEvent event {} =
      (filter.idsMatch event && filter.authorsMatch event && filter.kindMatch event &&
        filter.since.all (fun time => time ≤ event.createdAt) &&
        filter.until_.all (fun time => event.createdAt ≤ time) && filter.tagMatch event &&
        filter.searchMatch event) := by
  simp [Filter.matchEvent]

theorem matchEvent_of_isEmpty (empty : filterIsEmpty filter = true) (event : Event) :
    filter.matchEvent event {} = true := by
  simp only [filterIsEmpty, Bool.and_eq_true, Option.isNone_iff_eq_none] at empty
  obtain ⟨⟨⟨⟨⟨⟨⟨ids, authors⟩, kinds⟩, search⟩, since⟩, until_⟩, limit⟩, tags⟩ := empty
  simp [matchEvent_default, Filter.idsMatch, Filter.authorsMatch, Filter.kindMatch,
    Filter.setMatch, Filter.tagMatch, Filter.searchMatch, ids, authors, kinds, search, since,
    until_, tags]

theorem matchEvent_of_emptyRange (range : emptyRange filter = true) (event : Event) :
    filter.matchEvent event {} = false := by
  unfold emptyRange at range
  split at range
  next since until_ since_eq until_eq =>
    have apart := of_decide_eq_true range
    rw [matchEvent_default, since_eq, until_eq, ← Bool.not_eq_true]
    simp only [Option.all_some, Bool.and_eq_true, decide_eq_true_eq]
    intro within
    exact absurd (le_trans within.1.1.1.2 within.1.1.2) (not_le.mpr apart)
  next => cases range

/-! ## The patterns but one -/

theorem Valid.inTime_eq (valid : store.Valid) {event : Event} (held : store.Holds event)
    (since until_ : Option Timestamp) :
    store.inTime since until_ event = (since.all (fun time => time ≤ event.createdAt) &&
      until_.all (fun time => event.createdAt ≤ time)) := by
  rw [inTime, valid.undeleted event held, Bool.not_false, Bool.true_and]

theorem Valid.ordered_matches (valid : store.Valid) (filter : Filter) :
    Ordered (store.events.values.filter fun event => filter.matchEvent event {}) :=
  valid.describes.ordered_events.filter _

theorem Valid.mem_matches (valid : store.Valid) (filter : Filter) (event : Event) :
    event ∈ store.events.values.filter (fun event => filter.matchEvent event {}) ↔
      store.Holds event ∧ filter.matchEvent event {} = true := by
  rw [List.mem_filter, valid.describes.mem_events]

theorem Valid.author_finds (valid : store.Valid) {pubkey : PublicKey}
    (kinds : elements filter.kinds = []) (authors : elements filter.authors = [pubkey])
    (ids : elements filter.ids = []) (tags : filter.genericTags.len = 0)
    (search : filter.search = none) :
    store.queryByAuthor { author := pubkey, since := filter.since, until_ := filter.until_ } =
      store.events.values.filter fun event => filter.matchEvent event {} := by
  apply (valid.describes.ordered_queryByPattern (.author _)).eq_of_mem (valid.ordered_matches filter)
  intro event
  rw [queryByPattern, valid.describes.mem_queryByAuthor, valid.mem_matches, and_congr_right_iff]
  intro held
  rw [valid.inTime_eq held, matchEvent_default, Filter.idsMatch, Filter.authorsMatch,
    Filter.kindMatch, setMatch_eq, setMatch_eq, setMatch_eq, kinds, authors, ids,
    tagMatch_of_len tags, Filter.searchMatch, search]
  simp [and_assoc]

theorem Valid.kindAuthor_finds (valid : store.Valid) {kind : UInt16} {pubkey : PublicKey}
    (kinds : elements filter.kinds = [kind]) (authors : elements filter.authors = [pubkey])
    (ids : elements filter.ids = []) (tags : filter.genericTags.len = 0)
    (search : filter.search = none) :
    store.queryByKindAndAuthor
        { kind, author := pubkey, since := filter.since, until_ := filter.until_ } =
      store.events.values.filter fun event => filter.matchEvent event {} := by
  apply (valid.describes.ordered_queryByPattern (.kindAuthor _)).eq_of_mem
    (valid.ordered_matches filter)
  intro event
  rw [queryByPattern, valid.describes.mem_queryByKindAndAuthor, valid.mem_matches,
    and_congr_right_iff]
  intro held
  rw [valid.inTime_eq held, kindAuthor_inj, matchEvent_default, Filter.idsMatch,
    Filter.authorsMatch, Filter.kindMatch, setMatch_eq, setMatch_eq, setMatch_eq, kinds, authors,
    ids, tagMatch_of_len tags, Filter.searchMatch, search]
  simp [and_assoc, and_left_comm]

theorem Valid.generic_finds (valid : store.Valid) (filter : Filter) :
    store.genericQuery filter =
      store.events.values.filter fun event => filter.matchEvent event {} := by
  apply List.filter_congr
  intro event member
  rw [valid.undeleted event ((valid.describes.mem_events event).mp member), Bool.not_false,
    Bool.true_and]

/-! ## The lookup of one address -/

/-- The events that an address lookup has in view. -/
structure Candidate (store : MemoryStore) (params : QueryByParamReplaceable) (event : Event) :
    Prop where
  held : store.Holds event
  kind : event.kind.asU16 = params.kind
  author : event.pubkey = params.author
  since : params.since.all (fun time => time ≤ event.createdAt) = true
  until_ : params.until_.all (fun time => event.createdAt ≤ time) = true

/-- Among the candidates, the one with the identifier is the one whose tags
match; with a limit of one, it is the first of these. -/
structure LookupFits (store : MemoryStore) (filter : Filter) (params : QueryByParamReplaceable) :
    Prop where
  matching : ∀ event, store.Candidate params event →
    Tags.identifier event.tags = some params.identifier → filter.tagMatch event = true
  named : ∀ event, store.Candidate params event → filter.tagMatch event = true →
    Tags.identifier event.tags = some params.identifier ∨
      filter.limit = some 1 ∧ ∃ first, store.Candidate params first ∧
        Tags.identifier first.tags = some params.identifier ∧
        first.orderingKey < event.orderingKey

theorem Valid.mem_lookup (valid : store.Valid) {params : QueryByParamReplaceable}
    (addressable : (Kind.fromU16 params.kind).isAddressable = true) (event : Event) :
    event ∈ (store.queryParamReplaceable params).toList ↔
      store.Candidate params event ∧ Tags.identifier event.tags = some params.identifier := by
  rw [Option.mem_toList, valid.describes.queryParamReplaceable_eq_some]
  constructor
  · rintro ⟨held, own, inTime⟩
    obtain ⟨_, kind, author, named⟩ := addressOf_eq_some.mp own
    rw [valid.inTime_eq held, Bool.and_eq_true] at inTime
    exact ⟨⟨held, kind, author, inTime.1, inTime.2⟩, named⟩
  · rintro ⟨⟨held, kind, author, since, until_⟩, named⟩
    rw [← kind, Kind.isAddressable_fromU16] at addressable
    refine ⟨held, addressOf_eq_some.mpr ⟨addressable, kind, author, named⟩, ?_⟩
    rw [valid.inTime_eq held, since, until_, Bool.and_self]

theorem Valid.mem_matches_lookup (valid : store.Valid) {params : QueryByParamReplaceable}
    (kinds : elements filter.kinds = [params.kind])
    (authors : elements filter.authors = [params.author]) (ids : elements filter.ids = [])
    (search : filter.search = none) (since : params.since = filter.since)
    (until_ : params.until_ = filter.until_) (event : Event) :
    event ∈ store.events.values.filter (fun event => filter.matchEvent event {}) ↔
      store.Candidate params event ∧ filter.tagMatch event = true := by
  rw [valid.mem_matches, matchEvent_default, Filter.idsMatch, Filter.authorsMatch,
    Filter.kindMatch, setMatch_eq, setMatch_eq, setMatch_eq, kinds, authors, ids,
    Filter.searchMatch, search, ← since, ← until_]
  simp only [List.isEmpty_nil, List.isEmpty_cons, Bool.false_or, Bool.true_and,
    Bool.and_true, List.contains_cons, List.contains_nil, Bool.or_false, Bool.and_eq_true,
    beq_iff_eq]
  constructor
  · rintro ⟨held, ⟨⟨⟨author, kind⟩, after⟩, before⟩, tags⟩
    exact ⟨⟨held, kind, author, after, before⟩, tags⟩
  · rintro ⟨⟨held, kind, author, after, before⟩, tags⟩
    exact ⟨held, ⟨⟨⟨author, kind⟩, after⟩, before⟩, tags⟩

/-- A limit that lets one event through lets no second one through if it is 1. -/
theorem takeLimit_cons_eq_singleton {limit : Option Nat} (positive : limit ≠ some 0)
    (event head : Event) (rest : List Event) :
    takeLimit limit (head :: rest) = [event] ↔ head = event ∧ (limit = some 1 ∨ rest = []) := by
  cases limit with
  | none => simp [takeLimit]
  | some limit =>
      cases limit with
      | zero => exact absurd (.refl _) positive
      | succ limit => simp [takeLimit, List.take_eq_nil_iff]

theorem takeLimit_toList {limit : Option Nat} (positive : limit ≠ some 0) (found : Option Event) :
    takeLimit limit found.toList = found.toList := by
  cases limit with
  | none => rfl
  | some limit =>
      apply List.take_of_length_le
      have some_room : 1 ≤ limit := Nat.one_le_iff_ne_zero.mpr fun none => positive (by rw [none])
      cases found <;> simp [some_room]

theorem takeLimit_lookup_iff {found : Option Event} {events : List Event} {limit : Option Nat}
    (ordered : Ordered events) (positive : limit ≠ some 0) :
    takeLimit limit found.toList = takeLimit limit events ↔
      (∀ event ∈ found.toList, event ∈ events) ∧
      ∀ event ∈ events, event ∈ found.toList ∨
        limit = some 1 ∧ ∃ first ∈ found.toList, first.orderingKey < event.orderingKey := by
  rw [takeLimit_toList positive, eq_comm]
  cases events with
  | nil =>
      have nothing : takeLimit limit [] = [] := by cases limit <;> simp [takeLimit]
      cases found <;> simp [nothing]
  | cons head rest =>
      obtain ⟨after_head, _⟩ := List.pairwise_cons.mp ordered
      cases found with
      | none =>
          have nonempty : takeLimit limit (head :: rest) ≠ [] := by
            cases limit with
            | none => simp [takeLimit]
            | some limit => simpa [takeLimit] using positive
          simp only [Option.toList_none, nonempty, false_iff, not_and]
          intro _ covered
          simpa using covered head List.mem_cons_self
      | some found =>
          simp only [Option.toList_some, List.mem_singleton, forall_eq, exists_eq_left,
            takeLimit_cons_eq_singleton positive]
          constructor
          · rintro ⟨rfl, single⟩
            refine ⟨List.mem_cons_self, fun event member => ?_⟩
            cases List.mem_cons.mp member with
            | inl here => exact .inl here
            | inr there =>
                cases single with
                | inl one => exact .inr ⟨one, after_head event there⟩
                | inr none_there =>
                    rw [none_there] at there
                    cases there
          · rintro ⟨member, covered⟩
            have first : head = found := by
              cases List.mem_cons.mp member with
              | inl here => exact here.symm
              | inr there =>
                  cases covered head List.mem_cons_self with
                  | inl here => exact here
                  | inr later => exact absurd later.2 (not_lt.mpr (after_head found there).le)
            refine ⟨first, Classical.or_iff_not_imp_left.mpr fun several => ?_⟩
            rw [List.eq_nil_iff_forall_not_mem]
            intro event there
            cases covered event (List.mem_cons_of_mem _ there) with
            | inl here =>
                rw [here, ← first] at there
                exact lt_irrefl _ (after_head head there)
            | inr later => exact several later.1

/-! ## Every query -/

/-- What an address lookup must meet to answer like the match function. -/
def AnswersLike (store : MemoryStore) (filter : Filter) : QueryPattern → Prop
  | .paramReplaceable params =>
      filter.limit = some 0 ∨ emptyRange filter = true ∨ store.LookupFits filter params
  | _ => True

theorem Valid.query_of_all (valid : store.Valid) (empty : filterIsEmpty filter = true) :
    store.query filter = store.matching filter := by
  have unlimited : filter.limit = none := by
    simp only [filterIsEmpty, Bool.and_eq_true, Option.isNone_iff_eq_none] at empty
    exact empty.1.2
  have everything : store.events.values.filter (fun event => filter.matchEvent event {}) =
      store.events.values :=
    List.filter_eq_self.mpr fun event _ => matchEvent_of_isEmpty empty event
  rw [valid.describes.query_eq, if_pos empty, matching, everything, unlimited]
  rfl

theorem Valid.query_of_emptyRange (valid : store.Valid) (nonempty : filterIsEmpty filter = false)
    (range : emptyRange filter = true) : store.query filter = store.matching filter := by
  have nothing : store.events.values.filter (fun event => filter.matchEvent event {}) = [] :=
    List.filter_eq_nil_iff.mpr fun event _ => by simp [matchEvent_of_emptyRange range event]
  rw [valid.describes.query_eq, nonempty, range, matching, nothing]
  cases filter.limit <;> simp [takeLimit]

theorem Valid.answersMatches_iff (valid : store.Valid) (filter : Filter) :
    store.AnswersMatches filter ↔ store.query filter = store.matching filter := by
  constructor
  · rintro ⟨found, ordered, members, answer⟩
    rw [answer, matching]
    apply congrArg
    apply ordered.eq_of_mem (valid.ordered_matches filter)
    intro event
    rw [members, valid.mem_matches]
  · intro answer
    exact ⟨_, valid.ordered_matches filter, valid.mem_matches filter, answer⟩

theorem Valid.lookup_answers_iff (valid : store.Valid) {params : QueryByParamReplaceable}
    (kinds : elements filter.kinds = [params.kind])
    (authors : elements filter.authors = [params.author]) (ids : elements filter.ids = [])
    (search : filter.search = none) (since : params.since = filter.since)
    (until_ : params.until_ = filter.until_)
    (addressable : (Kind.fromU16 params.kind).isAddressable = true)
    (positive : filter.limit ≠ some 0) :
    takeLimit filter.limit (store.queryParamReplaceable params).toList = store.matching filter ↔
      store.LookupFits filter params := by
  have found := valid.mem_lookup addressable
  have matches_ := valid.mem_matches_lookup kinds authors ids search since until_
  rw [matching, takeLimit_lookup_iff (valid.ordered_matches filter) positive]
  simp only [found, matches_]
  constructor
  · rintro ⟨matching, named⟩
    refine ⟨fun event candidate own => (matching event ⟨candidate, own⟩).2,
      fun event candidate tags => ?_⟩
    cases named event ⟨candidate, tags⟩ with
    | inl own => exact .inl own.2
    | inr later =>
        obtain ⟨one, first, ⟨candidate', own⟩, before⟩ := later
        exact .inr ⟨one, first, candidate', own, before⟩
  · intro fits
    refine ⟨fun event own => ⟨own.1, fits.matching event own.1 own.2⟩, fun event tags => ?_⟩
    cases fits.named event tags.1 tags.2 with
    | inl own => exact .inl ⟨tags.1, own⟩
    | inr later =>
        obtain ⟨one, first, candidate', own, before⟩ := later
        exact .inr ⟨one, first, ⟨candidate', own⟩, before⟩

/-- The answer to a query that no shortcut answers. -/
theorem Valid.query_of_pattern (valid : store.Valid) (nonempty : filterIsEmpty filter = false)
    (range : emptyRange filter = false) :
    store.query filter = store.matching filter ↔
      store.AnswersLike filter (.ofFilter filter) := by
  rw [valid.describes.query_eq, nonempty, range]
  simp only [Bool.false_eq_true, if_false]
  have chosen := QueryPattern.ofFilter_chosen filter
  generalize QueryPattern.ofFilter filter = pattern at chosen ⊢
  cases chosen with
  | author kinds authors ids tags search =>
      simp only [queryByPattern, valid.author_finds kinds authors ids tags search, matching,
        AnswersLike]
  | kindAuthor kinds authors ids tags search =>
      simp only [queryByPattern, valid.kindAuthor_finds kinds authors ids tags search, matching,
        AnswersLike]
  | paramReplaceable kinds authors ids search addressable =>
      simp only [queryByPattern, AnswersLike, range, Bool.false_eq_true, false_or]
      by_cases zero : filter.limit = some 0
      · simp [matching, zero, takeLimit]
      · rw [valid.lookup_answers_iff kinds authors ids search (.refl _) (.refl _) addressable zero]
        simp only [zero, false_or]
  | generic => simp only [queryByPattern, valid.generic_finds, matching, AnswersLike]

theorem answersLike_of_isEmpty (empty : filterIsEmpty filter = true) :
    store.AnswersLike filter (.ofFilter filter) := by
  have unnamed : elements filter.authors = [] := by
    simp only [filterIsEmpty, Bool.and_eq_true, Option.isNone_iff_eq_none] at empty
    obtain ⟨⟨⟨⟨⟨⟨⟨_, authors⟩, _⟩, _⟩, _⟩, _⟩, _⟩, _⟩ := empty
    rw [authors]
    rfl
  have chosen := QueryPattern.ofFilter_chosen filter
  generalize QueryPattern.ofFilter filter = pattern at chosen ⊢
  cases chosen with
  | paramReplaceable _ authors =>
      rw [unnamed] at authors
      cases authors
  | author | kindAuthor | generic => trivial

theorem answersLike_of_emptyRange (range : emptyRange filter = true) (pattern : QueryPattern) :
    store.AnswersLike filter pattern := by
  cases pattern with
  | paramReplaceable => exact .inr (.inl range)
  | author | kindAuthor | generic => trivial

theorem Valid.query_eq_iff (valid : store.Valid) (filter : Filter) :
    store.query filter = store.matching filter ↔
      store.AnswersLike filter (.ofFilter filter) := by
  cases nonempty : filterIsEmpty filter with
  | true => simp only [valid.query_of_all nonempty, answersLike_of_isEmpty nonempty]
  | false =>
      cases range : emptyRange filter with
      | true =>
          simp only [valid.query_of_emptyRange nonempty range, answersLike_of_emptyRange range]
      | false => exact valid.query_of_pattern nonempty range

/-- In every reachable state a query answers with the first of the matches,
unless it looks up one address and the tags of the filter ask for something
else than that address. -/
theorem run_answersMatches_iff (externals : Externals) (capped : CappedSet EventKey Event)
    (maxEvents : Option ℕ+) (options : MemoryOptions) (operations : List Operation)
    (filter : Filter) :
    let store := run externals capped maxEvents options operations
    store.AnswersMatches filter ↔ store.AnswersLike filter (.ofFilter filter) := by
  have valid := @run_valid externals capped maxEvents options operations
  exact (valid.answersMatches_iff filter).trans (valid.query_eq_iff filter)

/-! ## A filter with two identifiers -/

open NostrLmdb.Lmdb (sampleExternals sampleAuthor sampleEvent sampleTag)

def sampleRun (options : MemoryOptions) (events : List Event) : MemoryStore :=
  run sampleExternals .popLast none options (events.map fun event => .index event 0)

def sampleArticle : Event := sampleEvent 1 10 (.custom 30000) [sampleTag "d" "b"]

def articlesFilter : Filter :=
  (((Filter.new.author sampleAuthor).kind (.custom 30000)).customTag .lowercaseD "a").customTag
    .lowercaseD "b"

/-- Only the first of the identifiers is looked up. -/
theorem sampleRun_not_answersMatches :
    ¬ (sampleRun {} [sampleArticle]).AnswersMatches articlesFilter := by
  rintro ⟨found, _, members, answer⟩
  have nothing : (sampleRun {} [sampleArticle]).query articlesFilter = [] := by decide +kernel
  have held : (sampleRun {} [sampleArticle]).Holds sampleArticle := by
    unfold Holds
    decide +kernel
  have wanted := (members sampleArticle).mpr ⟨held, by decide +kernel⟩
  have none_found : found = [] := answer.symm.trans nothing
  rw [none_found] at wanted
  cases wanted

end MemoryStore

end RustNostr.NostrMemory
