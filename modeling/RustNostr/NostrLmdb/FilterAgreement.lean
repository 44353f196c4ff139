import Mathlib
import RustNostr.NostrLmdb.Filter

/-!
# The two filter evaluators

The store's own match function against that of the filter itself. They are
written independently, over two forms of an event, and differ only in the
search.
-/

set_option autoImplicit false

namespace RustNostr.NostrLmdb.DatabaseFilter

open Library

/-! ## Texts -/

theorem toAsciiLowercase_idem (byte : UInt8) :
    toAsciiLowercase (toAsciiLowercase byte) = toAsciiLowercase byte := by
  unfold toAsciiLowercase
  split
  next upper =>
    apply if_neg
    simp only [UInt8.le_iff_toNat_le, UInt8.toNat_add, UInt8.reduceToNat] at upper ⊢
    omega
  next => rfl

/-- The text of the query occurs in the content, up to the case of ASCII
letters. -/
def occursIn (query content : String) : Bool :=
  (windows (utf8 query).length (utf8 content)).any fun window =>
    eqIgnoreAsciiCase window (utf8 query)

theorem eqIgnoreAsciiCase_lowercase (window query : Bytes) :
    eqIgnoreAsciiCase window (query.map toAsciiLowercase) = eqIgnoreAsciiCase window query := by
  have same : (query.map toAsciiLowercase).map toAsciiLowercase = query.map toAsciiLowercase := by
    rw [List.map_map]
    exact List.map_congr_left fun byte _ => toAsciiLowercase_idem byte
  unfold eqIgnoreAsciiCase
  rw [same]

theorem windows_of_short {length : Nat} {bytes : Bytes} (short : bytes.length < length) :
    windows length bytes = [] := by
  have none_fits : bytes.length + 1 - length = 0 := by omega
  rw [windows, none_fits, List.range_zero, List.map_nil]

theorem windows_one (bytes : Bytes) : windows 1 bytes = bytes.map fun byte => [byte] := by
  apply List.ext_getElem
  · simp [windows]
  · intro index _ bound
    rw [List.length_map] at bound
    simp [windows, List.take_one_drop_eq_of_lt_length bound]

/-- The fast paths find what the windows would. -/
theorem matchContent_lowercase (query : Bytes) (content : Bytes) :
    matchContent (query.map toAsciiLowercase) content =
      (!query.isEmpty && (windows query.length content).any fun window =>
        eqIgnoreAsciiCase window query) := by
  unfold matchContent
  rw [List.isEmpty_map, List.length_map]
  cases query with
  | nil => rfl
  | cons first rest =>
      simp only [List.isEmpty_cons, Bool.not_false, Bool.true_and, Bool.false_eq_true, if_false]
      split
      next short => rw [windows_of_short short, List.any_nil]
      next =>
        cases rest with
        | nil =>
            simp only [List.map_cons, List.map_nil, List.length_singleton, windows_one,
              List.any_map]
            apply congrArg (content.any ·)
            funext byte
            simp [eqIgnoreAsciiCase]
        | cons second rest =>
            exact congrArg (List.any _) (funext fun window =>
              eqIgnoreAsciiCase_lowercase window (first :: second :: rest))

theorem utf8_isEmpty (text : String) : (utf8 text).isEmpty = decide (text = "") := by
  rw [Bool.eq_iff_iff, List.isEmpty_iff, decide_eq_true_eq]
  exact utf8_injective.eq_iff (b := "")

/-! ## One part of the filter after the other -/

variable (order : HashOrder) (filter : Filter) (event : Event)

theorem setMatch_arrange {α : Type} [LinearOrder α] [BEq α] [LawfulBEq α]
    (set : Option (SortedSet α)) (element : α) :
    ((order.arrange ((set.map SortedSet.elems).getD [])).isEmpty ||
      (order.arrange ((set.map SortedSet.elems).getD [])).contains element) =
        Filter.setMatch set element := by
  rw [contains_arrange, Bool.eq_iff_iff, Bool.or_eq_true, List.contains_iff_mem,
    Filter.setMatch_iff]
  cases set with
  | none => simp
  | some set =>
      simp only [Option.map_some, Option.getD_some, Option.some.injEq, forall_eq']
      cases empty : set.isEmpty <;> simp_all [SortedSet.elems, SortedSet.isEmpty]

theorem extract_eq (tag : Tag) : extract tag =
    tag.singleLetterTag.bind fun name => tag.content.map fun value => (name, value) := by
  obtain ⟨buf, notEmpty⟩ := tag
  cases buf with
  | nil => exact absurd rfl notEmpty
  | cons name rest =>
      cases rest with
      | nil => simp [extract, Tag.content]
      | cons value rest =>
          simp only [extract, Tag.singleLetterTag, Tag.kind, Tag.content, List.head_cons,
            List.getElem?_cons_succ, List.getElem?_cons_zero, Option.map_some]
          exact Option.map_eq_bind

theorem tagMatch_ofFilter :
    (ofFilter order filter).tagMatch (.ofEvent event) = filter.tagMatch event := by
  have same : extract = fun tag =>
      tag.singleLetterTag.bind fun name => tag.content.map fun value => (name, value) :=
    funext extract_eq
  rw [Bool.eq_iff_iff, tagMatch_iff, Filter.tagMatch_iff, same]
  rfl

/-! ## The search -/

/-- The value of a tag that the store searches contains the query. -/
def tagsMention (query : String) (tags : List Tag) : Bool :=
  tags.any fun tag => isAllowedTagKind tag.kind && tag.content.any (occursIn query)

theorem matchContent_eq (query content : String) :
    matchContent ((utf8 query).map toAsciiLowercase) (utf8 content) =
      (decide (query ≠ "") && occursIn query content) := by
  rw [matchContent_lowercase, utf8_isEmpty, decide_not]
  rfl

theorem searchMatch_ofFilter : (ofFilter order filter).searchMatch (.ofEvent event) =
    filter.search.all fun query =>
      decide (query ≠ "") && (occursIn query event.content || tagsMention query event.tags) := by
  unfold searchMatch tagsMention
  dsimp only [ofFilter, DatabaseEvent.ofEvent]
  cases filter.search with
  | none => rfl
  | some query =>
      simp only [Option.map_some, Option.all_some, matchContent_eq, Bool.and_or_distrib_left]
      apply congrArg (Bool.or _)
      by_cases empty : query = ""
      · simp only [empty, ne_eq, not_true_eq_false, decide_false, Bool.false_and, Bool.and_false,
          List.any_eq_false, Bool.not_eq_true]
        intro tag _
        cases tag.content <;> rfl
      · simp only [empty, ne_eq, not_false_eq_true, decide_true, Bool.true_and]
        apply congrArg (List.any _)
        funext tag
        cases tag.content with
        | none => simp only [Option.any_none, Bool.and_false]
        | some content => rfl

theorem searchMatch_eq : filter.searchMatch event =
    filter.search.all fun query => decide (query = "") || occursIn query event.content := by
  unfold Filter.searchMatch
  cases filter.search with
  | none => rfl
  | some query => rw [Option.all_some, ← utf8_isEmpty, occursIn]

/-! ## The whole -/

theorem matchEvent_ofFilter_eq : (ofFilter order filter).matchEvent (.ofEvent event) =
    (filter.matchEvent event { nip50 := false } && filter.search.all fun query =>
      decide (query ≠ "") && (occursIn query event.content || tagsMention query event.tags)) := by
  have ids : (ofFilter order filter).idsMatch (.ofEvent event) = filter.idsMatch event :=
    setMatch_arrange order filter.ids event.id
  have authors : (ofFilter order filter).authorsMatch (.ofEvent event) = filter.authorsMatch event :=
    setMatch_arrange order filter.authors event.pubkey
  have kinds : (ofFilter order filter).kindMatch (.ofEvent event) = filter.kindMatch event :=
    setMatch_arrange order filter.kinds event.kind.asU16
  unfold matchEvent Filter.matchEvent
  rw [ids, authors, kinds, tagMatch_ofFilter, searchMatch_ofFilter]
  simp only [Bool.not_true, Bool.false_or, Bool.not_false, Bool.true_or, Bool.and_true]
  rfl

theorem matchEvent_eq : filter.matchEvent event {} =
    (filter.matchEvent event { nip50 := false } && filter.search.all fun query =>
      decide (query = "") || occursIn query event.content) := by
  unfold Filter.matchEvent
  rw [searchMatch_eq]
  simp only [Bool.not_true, Bool.false_or, Bool.not_false, Bool.true_or, Bool.and_true]

/-- The two agree unless only the search is left to decide, and its text is empty
or occurs in a tag that the store searches but not in the content. -/
theorem matchEvent_agrees_iff :
    (ofFilter order filter).matchEvent (.ofEvent event) = filter.matchEvent event {} ↔
      filter.matchEvent event { nip50 := false } = false ∨
        ∀ query, filter.search = some query → query ≠ "" ∧
          (tagsMention query event.tags = true → occursIn query event.content = true) := by
  rw [matchEvent_ofFilter_eq, matchEvent_eq]
  cases filter.matchEvent event { nip50 := false } with
  | false => simp only [Bool.false_and, true_or]
  | true =>
      simp only [Bool.true_and, Bool.true_eq_false, false_or]
      cases filter.search with
      | none => simp only [Option.all_none, reduceCtorEq, false_implies, implies_true]
      | some query =>
          simp only [Option.all_some, Option.some.injEq, forall_eq']
          by_cases empty : query = ""
          · simp [empty]
          · cases occursIn query event.content <;> simp [empty]

/-- A filter with an empty search. -/
theorem matchEvent_not_agrees : ¬ ∀ (order : HashOrder) (filter : Filter) (event : Event),
    (ofFilter order filter).matchEvent (.ofEvent event) = filter.matchEvent event {} := by
  intro agrees
  let event : Event :=
    ⟨.replicate 32 0, .replicate 32 0, 1, .custom 1, [], "", .replicate 64 0⟩
  have same := agrees .id { search := some "" } event
  revert same
  decide +kernel

end RustNostr.NostrLmdb.DatabaseFilter
