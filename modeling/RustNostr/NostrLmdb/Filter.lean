import Mathlib
import RustNostr.NostrLmdb.Index

/-! The store's own filter evaluator (`nostr-lmdb/src/store/filter.rs`). A
`HashSet` is the list of its elements in iteration order, which the program does
not fix. -/

set_option autoImplicit false

namespace RustNostr.NostrLmdb

open Library

/-- An iteration order for hash sets: any arrangement of the elements. -/
structure HashOrder where
  arrange : {α : Type} → List α → List α
  perm : ∀ {α : Type} (elements : List α), (arrange elements).Perm elements

def HashOrder.id : HashOrder := ⟨fun elements => elements, fun _ => .refl _⟩

structure DatabaseFilter where
  ids : List EventId
  authors : List PublicKey
  kinds : List UInt16
  /-- Already in ASCII lowercase. -/
  search : Option Bytes
  since : Option Timestamp
  until_ : Option Timestamp
  genericTags : SortedTable SingleLetterTag (SortedSet String)

namespace DatabaseFilter

def idsMatch (filter : DatabaseFilter) (event : DatabaseEvent) : Bool :=
  filter.ids.isEmpty || filter.ids.contains event.id

def authorsMatch (filter : DatabaseFilter) (event : DatabaseEvent) : Bool :=
  filter.authors.isEmpty || filter.authors.contains event.pubkey

def tagMatch (filter : DatabaseFilter) (event : DatabaseEvent) : Bool :=
  if filter.genericTags.entries.isEmpty then true
  else if event.tags.isEmpty then false
  else
    filter.genericTags.entries.all fun (tagName, set) =>
      event.tags.any fun tag =>
        match extract tag with
        | some (first, content) => first == tagName && (SortedSet.elems set).contains content
        | none => false

def kindMatch (filter : DatabaseFilter) (event : DatabaseEvent) : Bool :=
  filter.kinds.isEmpty || filter.kinds.contains event.kind

def matchContent (query content : Bytes) : Bool :=
  if query.isEmpty then false
  else if content.length < query.length then false
  else
    match query with
    | [queryByte] => content.any fun byte => toAsciiLowercase byte == queryByte
    | _ => (windows query.length content).any fun window => eqIgnoreAsciiCase window query

def isAllowedTagKind (kind : String) : Bool :=
  kind == "title" || kind == "description" || kind == "subject" || kind == "name"

def searchMatch (filter : DatabaseFilter) (event : DatabaseEvent) : Bool :=
  match filter.search with
  | none => true
  | some query =>
      matchContent query (utf8 event.content) ||
        event.tags.any fun tag =>
          match tag.content with
          | none => false
          | some content => isAllowedTagKind tag.kind && matchContent query (utf8 content)

def matchEvent (filter : DatabaseFilter) (event : DatabaseEvent) : Bool :=
  filter.idsMatch event && filter.authorsMatch event && filter.kindMatch event &&
    filter.since.all (fun time => time ≤ event.createdAt) &&
    filter.until_.all (fun time => event.createdAt ≤ time) &&
    filter.tagMatch event && filter.searchMatch event

def ofFilter (order : HashOrder) (filter : Filter) : DatabaseFilter where
  ids := order.arrange ((filter.ids.map SortedSet.elems).getD [])
  authors := order.arrange ((filter.authors.map SortedSet.elems).getD [])
  kinds := order.arrange ((filter.kinds.map SortedSet.elems).getD [])
  search := filter.search.map fun text => (utf8 text).map toAsciiLowercase
  since := filter.since
  until_ := filter.until_
  genericTags := filter.genericTags

/-! ## What a match says -/

variable {filter : DatabaseFilter} {event : DatabaseEvent}

theorem matchEvent_iff : filter.matchEvent event = true ↔
    filter.idsMatch event = true ∧ filter.authorsMatch event = true ∧
    filter.kindMatch event = true ∧
    filter.since.all (fun time => time ≤ event.createdAt) = true ∧
    filter.until_.all (fun time => event.createdAt ≤ time) = true ∧
    filter.tagMatch event = true ∧ filter.searchMatch event = true := by
  simp only [matchEvent, Bool.and_eq_true, and_assoc]

private theorem mem_of_contains {α : Type} [BEq α] [LawfulBEq α] {set : List α} {element : α}
    (allowed : (set.isEmpty || set.contains element) = true) (restricted : set.isEmpty = false) :
    element ∈ set := by
  rw [restricted, Bool.false_or] at allowed
  exact List.contains_iff_mem.mp allowed

theorem mem_ids (wants : filter.matchEvent event = true) (restricted : filter.ids.isEmpty = false) :
    event.id ∈ filter.ids :=
  mem_of_contains (matchEvent_iff.mp wants).1 restricted

theorem mem_authors (wants : filter.matchEvent event = true)
    (restricted : filter.authors.isEmpty = false) : event.pubkey ∈ filter.authors :=
  mem_of_contains (matchEvent_iff.mp wants).2.1 restricted

theorem mem_kinds (wants : filter.matchEvent event = true)
    (restricted : filter.kinds.isEmpty = false) : event.kind ∈ filter.kinds :=
  mem_of_contains (matchEvent_iff.mp wants).2.2.1 restricted

theorem since_le (wants : filter.matchEvent event = true) :
    filter.since.getD .min ≤ event.createdAt := by
  have bounded := (matchEvent_iff.mp wants).2.2.2.1
  cases since : filter.since with
  | none => exact Timestamp.min_le event.createdAt
  | some time => simpa [since] using bounded

theorem le_until (wants : filter.matchEvent event = true) :
    event.createdAt ≤ filter.until_.getD .max := by
  have bounded := (matchEvent_iff.mp wants).2.2.2.2.1
  cases until_ : filter.until_ with
  | none => exact Timestamp.le_max event.createdAt
  | some time => simpa [until_] using bounded

/-- For every tag name of the filter, the event has a tag with one of the
values. -/
theorem tagMatch_iff : filter.tagMatch event = true ↔
    ∀ name values, filter.genericTags.get? name = some values →
      ∃ value ∈ values.elems, (name, value) ∈ event.tags.filterMap extract := by
  simp only [SortedTable.get?_eq_some]
  unfold tagMatch
  split
  next none_asked =>
    rw [List.isEmpty_iff.mp none_asked]
    simp
  next asked =>
    split
    next untagged =>
      obtain ⟨⟨name, values⟩, member⟩ :=
        List.exists_mem_of_ne_nil _ fun empty => asked (List.isEmpty_iff.mpr empty)
      simp only [Bool.false_eq_true, false_iff]
      intro tagged
      obtain ⟨value, _, found⟩ := tagged name values member
      rw [List.isEmpty_iff.mp untagged] at found
      cases found
    next =>
      simp only [List.all_eq_true, List.any_eq_true, List.mem_filterMap, Prod.forall]
      apply forall₃_congr
      intro name values _
      constructor
      · intro found
        obtain ⟨tag, member, fits⟩ := found
        cases extracted : extract tag with
        | none =>
            rw [extracted] at fits
            cases fits
        | some pair =>
            rw [extracted] at fits
            simp only [Bool.and_eq_true, beq_iff_eq, List.contains_iff_mem] at fits
            refine ⟨pair.2, fits.2, tag, member, ?_⟩
            rw [extracted, ← fits.1]
      · intro found
        obtain ⟨value, wanted, tag, member, extracted⟩ := found
        refine ⟨tag, member, ?_⟩
        rw [extracted]
        simp only [beq_self_eq_true, Bool.true_and, List.contains_iff_mem]
        exact wanted

theorem exists_tag (wants : filter.matchEvent event = true)
    {tag : SingleLetterTag × SortedSet String} (member : tag ∈ filter.genericTags.entries) :
    ∃ tagValue ∈ tag.2.elems, (tag.1, tagValue) ∈ event.tags.filterMap extract :=
  tagMatch_iff.mp (matchEvent_iff.mp wants).2.2.2.2.2.1 tag.1 tag.2
    (SortedTable.get?_eq_some.mpr member)

/-! ## The order of the hash sets does not matter -/

theorem contains_arrange {α : Type} [BEq α] [LawfulBEq α] (order : HashOrder)
    (set : List α) (element : α) :
    ((order.arrange set).isEmpty || (order.arrange set).contains element) =
      (set.isEmpty || set.contains element) := by
  have perm := order.perm set
  rw [perm.isEmpty_eq, Bool.eq_iff_iff]
  simp only [Bool.or_eq_true, List.contains_iff_mem, perm.mem_iff]

theorem matchEvent_ofFilter (order order' : HashOrder) (filter : Filter) :
    (ofFilter order filter).matchEvent = (ofFilter order' filter).matchEvent := by
  funext event
  simp only [matchEvent, idsMatch, authorsMatch, kindMatch, ofFilter, contains_arrange]
  rfl

theorem mem_arrange {α : Type} (order : HashOrder) {set : List α} {element : α} :
    element ∈ order.arrange set ↔ element ∈ set := (order.perm set).mem_iff

end DatabaseFilter

end RustNostr.NostrLmdb
