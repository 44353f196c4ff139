import Mathlib
import RustNostr.Library.SortedTable
import RustNostr.Nostr.Event

/-!
# Subscription filters

Filters and their match function (`nostr/src/filter/mod.rs`). A `BTreeSet` is a
sorted set; a set of kinds is the set of their numbers, by which kinds are
ordered.
-/

set_option autoImplicit false

namespace RustNostr

open Library

structure Filter where
  ids : Option (SortedSet EventId) := none
  authors : Option (SortedSet PublicKey) := none
  kinds : Option (SortedSet UInt16) := none
  search : Option String := none
  since : Option Timestamp := none
  until_ : Option Timestamp := none
  limit : Option Nat := none
  genericTags : SortedTable SingleLetterTag (SortedSet String) := .empty

namespace Filter

def new : Filter := {}

def author (filter : Filter) (author : PublicKey) : Filter :=
  { filter with authors := some (SortedSet.insert (filter.authors.getD .empty) author) }

def kind (filter : Filter) (kind : Kind) : Filter :=
  { filter with kinds := some (SortedSet.insert (filter.kinds.getD .empty) kind.asU16) }

def customTag (filter : Filter) (tag : SingleLetterTag) (value : String) : Filter :=
  { filter with
    genericTags := filter.genericTags.put tag
      (SortedSet.insert ((filter.genericTags.get? tag).getD .empty) value) }

def pubkey (externals : Externals) (filter : Filter) (pubkey : PublicKey) : Filter :=
  filter.customTag .lowercaseP (externals.hexEncode pubkey.val)

end Filter

/-- `slice::windows`: the contiguous parts of the given length, from the left. -/
def windows (length : Nat) (bytes : Bytes) : List Bytes :=
  (List.range (bytes.length + 1 - length)).map fun start => (bytes.drop start).take length

def toAsciiLowercase (byte : UInt8) : UInt8 :=
  if 65 ≤ byte ∧ byte ≤ 90 then byte + 32 else byte

def eqIgnoreAsciiCase (left right : Bytes) : Bool :=
  left.map toAsciiLowercase == right.map toAsciiLowercase

def utf8 (text : String) : Bytes := text.toUTF8.data.toList

theorem utf8_injective : Function.Injective utf8 := by
  intro left right same
  apply String.toByteArray_inj.mp
  apply ByteArray.ext
  exact Array.toList_inj.mp same

/-! ## Matching -/

structure MatchEventOptions where
  id : Bool := true
  author : Bool := true
  kind : Bool := true
  tags : Bool := true
  since : Bool := true
  until_ : Bool := true
  nip50 : Bool := true

namespace Filter

/-- An absent set and an empty one allow every element alike. -/
def setMatch {α : Type} [LinearOrder α] (set : Option (SortedSet α)) (element : α) : Bool :=
  match set with
  | none => true
  | some set => set.isEmpty || (SortedSet.elems set).contains element

def idsMatch (filter : Filter) (event : Event) : Bool := setMatch filter.ids event.id

def authorsMatch (filter : Filter) (event : Event) : Bool := setMatch filter.authors event.pubkey

def kindMatch (filter : Filter) (event : Event) : Bool := setMatch filter.kinds event.kind.asU16

def tagMatch (filter : Filter) (event : Event) : Bool :=
  if filter.genericTags.entries.isEmpty then true
  else if event.tags.isEmpty then false
  else
    let indexes := event.tags.filterMap fun tag =>
      tag.singleLetterTag.bind fun name => tag.content.map fun value => (name, value)
    filter.genericTags.entries.all fun (tagName, set) =>
      (SortedSet.elems set).any fun value => indexes.contains (tagName, value)

def searchMatch (filter : Filter) (event : Event) : Bool :=
  match filter.search with
  | none => true
  | some query =>
      (utf8 query).isEmpty ||
        (windows (utf8 query).length (utf8 event.content)).any fun window =>
          eqIgnoreAsciiCase window (utf8 query)

def matchEvent (filter : Filter) (event : Event) (opts : MatchEventOptions) : Bool :=
  (!opts.id || filter.idsMatch event) &&
  (!opts.author || filter.authorsMatch event) &&
  (!opts.kind || filter.kindMatch event) &&
  (!opts.since || filter.since.all fun time => time ≤ event.createdAt) &&
  (!opts.until_ || filter.until_.all fun time => event.createdAt ≤ time) &&
  (!opts.tags || filter.tagMatch event) &&
  (!opts.nip50 || filter.searchMatch event)

/-! ## What a match says -/

theorem setMatch_iff {α : Type} [LinearOrder α] {set : Option (SortedSet α)} {element : α} :
    setMatch set element = true ↔
      ∀ elements, set = some elements → elements.isEmpty = false → element ∈ elements.elems := by
  cases set with
  | none => simp [setMatch]
  | some set => cases empty : set.isEmpty <;> simp [setMatch, empty]

/-- Every tag that is asked for is there with one of its values. -/
theorem tagMatch_iff {filter : Filter} {event : Event} : filter.tagMatch event = true ↔
    ∀ name values, filter.genericTags.get? name = some values → ∃ value ∈ values.elems,
      (name, value) ∈ event.tags.filterMap fun tag =>
        tag.singleLetterTag.bind fun name => tag.content.map fun value => (name, value) := by
  simp only [SortedTable.get?_eq_some]
  unfold tagMatch
  split
  next none_asked =>
    rw [List.isEmpty_iff.mp none_asked]
    simp
  next asked =>
    split
    next untagged =>
      obtain ⟨⟨name, values⟩, member⟩ :=
        List.exists_mem_of_ne_nil _ fun empty => asked (List.isEmpty_iff.mpr empty)
      simp only [Bool.false_eq_true, false_iff]
      intro tagged
      obtain ⟨value, _, found⟩ := tagged name values member
      rw [List.isEmpty_iff.mp untagged] at found
      cases found
    next => simp only [List.all_eq_true, List.any_eq_true, List.contains_iff_mem, Prod.forall]

end Filter

end RustNostr
