import Mathlib
import RustNostr.Library.Transaction
import RustNostr.Nostr.Hex

/-!
# Filter JSON

A filter as a JSON object and back (`nostr/src/filter/mod.rs`,
`nostr/src/filter/single_letter.rs`). Reading and writing JSON texts is left to
`serde_json`, so a value stands for its text; the entries of an object keep their
order and may repeat a key.
-/

set_option autoImplicit false

namespace RustNostr

open Library

/-! ## JSON values -/

/-- Numbers that are not integers are their texts. -/
inductive JsonValue where
  | null
  | bool (value : Bool)
  | number (value : Int)
  | decimal (text : String)
  | string (text : String)
  | array (elements : List JsonValue)
  | object (entries : List (String × JsonValue))

inductive JsonError where
  | duplicateField (name : String)
  | invalidType
  | invalidValue
  | nonAsciiAlphabeticChar
  deriving DecidableEq

namespace JsonValue

def asString : JsonValue → Except JsonError String
  | string text => .ok text
  | _ => .error .invalidType

/-- An unsigned integer below the bound. -/
def asUnsigned (bound : Nat) : JsonValue → Except JsonError Nat
  | number value => if 0 ≤ value ∧ value < bound then .ok value.toNat else .error .invalidValue
  | _ => .error .invalidType

/-- `BTreeSet` of such elements. -/
def asSet {α : Type} [LinearOrder α] (element : JsonValue → Except JsonError α) :
    JsonValue → Except JsonError (SortedSet α)
  | array elements => (elements.mapM element).map SortedSet.ofList
  | _ => .error .invalidType

/-- `Option`, which is `None` for a null. -/
def asOption {α : Type} (present : JsonValue → Except JsonError α) :
    JsonValue → Except JsonError (Option α)
  | null => .ok none
  | value => (present value).map some

def ofSet {α : Type} [LinearOrder α] (element : α → JsonValue) (set : SortedSet α) : JsonValue :=
  array (set.elems.map element)

end JsonValue

open JsonValue

/-! ## Keys of generic tags -/

/-- `character as u8` drops all but the last eight bits. -/
def SingleLetterTag.fromChar (character : Char) : Option SingleLetterTag :=
  fromByte (UInt8.ofNat character.toNat)

def SingleLetterTag.asChar (tag : SingleLetterTag) : Char := Char.ofNat tag.byte.toNat

/-- `TagKey`: a tag for a key that asks for one, else the key is ignored. -/
def TagKey.visitStr (key : String) : Except JsonError (Option SingleLetterTag) :=
  match key.toList with
  | ['#', character] =>
      match SingleLetterTag.fromChar character with
      | some tag => .ok (some tag)
      | none => .error .nonAsciiAlphabeticChar
  | _ => .ok none

/-- The key that a tag is written under. -/
def SingleLetterTag.genericKey (tag : SingleLetterTag) : String := String.ofList ['#', tag.asChar]

abbrev GenericTags := SortedTable SingleLetterTag (SortedSet String)

def serializeGenericTags (genericTags : GenericTags) : List (String × JsonValue) :=
  genericTags.entries.map fun (tag, values) => (tag.genericKey, ofSet string values)

/-- One turn of the loop in `visit_map`. -/
def visitEntry (genericTags : GenericTags) (entry : String × JsonValue) :
    Except JsonError GenericTags :=
  match TagKey.visitStr entry.1 with
  | .error error => .error error
  | .ok none => .ok genericTags
  | .ok (some tag) => (asSet asString entry.2).map fun values => genericTags.put tag values

def deserializeGenericTags (entries : List (String × JsonValue)) : Except JsonError GenericTags :=
  entries.foldlM visitEntry .empty

/-! ## IDs and keys -/

/-- What the readers of bech32 texts and of NIP-21 URIs yield; both rest on the
`bech32` crate. -/
structure NostrForms where
  eventIdFromBech32 : String → Option EventId
  eventIdFromNostrUri : String → Option EventId
  publicKeyFromBech32 : String → Option PublicKey
  publicKeyFromNostrUri : String → Option PublicKey

def startsWith (text beginning : String) : Bool := beginning.toList.isPrefixOf text.toList

def EventId.parse (externals : Externals) (forms : NostrForms) (id : String) : Option EventId :=
  match externals.hexDecode id with
  | some id => some id
  | none =>
      match forms.eventIdFromBech32 id with
      | some id => some id
      | none => forms.eventIdFromNostrUri id

def PublicKey.parse (externals : Externals) (forms : NostrForms) (publicKey : String) :
    Option PublicKey :=
  if startsWith publicKey "npub" || startsWith publicKey "nprofile" then
    forms.publicKeyFromBech32 publicKey
  else if startsWith publicKey "nostr:" then forms.publicKeyFromNostrUri publicKey
  else externals.hexDecode publicKey

def EventId.deserialize (externals : Externals) (forms : NostrForms) (value : JsonValue) :
    Except JsonError EventId := do
  let id ← asString value
  (EventId.parse externals forms id).elim (.error .invalidValue) .ok

def PublicKey.deserialize (externals : Externals) (forms : NostrForms) (value : JsonValue) :
    Except JsonError PublicKey := do
  let publicKey ← asString value
  (PublicKey.parse externals forms publicKey).elim (.error .invalidValue) .ok

/-- A kind as a filter holds it. -/
def Kind.deserialize (value : JsonValue) : Except JsonError UInt16 :=
  (asUnsigned 65536 value).map UInt16.ofNat

def Timestamp.deserialize (value : JsonValue) : Except JsonError Timestamp :=
  (asUnsigned 18446744073709551616 value).map UInt64.ofNat

/-! ## Filters -/

namespace Filter

/-- A field is skipped if it is `None`. -/
def entry (name : String) (value : Option JsonValue) : List (String × JsonValue) :=
  (value.map fun value => (name, value)).toList

def serialize (externals : Externals) (filter : Filter) : List (String × JsonValue) :=
  entry "ids" (filter.ids.map (ofSet fun id => string (externals.hexEncode id.val))) ++
    entry "authors" (filter.authors.map (ofSet fun author => string (externals.hexEncode author.val))) ++
    entry "kinds" (filter.kinds.map (ofSet fun kind => number kind.toNat)) ++
    entry "search" (filter.search.map string) ++
    entry "since" (filter.since.map fun since => number since.toNat) ++
    entry "until" (filter.until_.map fun until_ => number until_.toNat) ++
    entry "limit" (filter.limit.map fun limit : Nat => number limit) ++
    serializeGenericTags filter.genericTags

def fieldNames : List String := ["ids", "authors", "kinds", "search", "since", "until", "limit"]

/-- The derived reader of a field. Which of several errors comes first is left
out. -/
def field {α : Type} (object : List (String × JsonValue)) (name : String)
    (present : JsonValue → Except JsonError α) : Except JsonError (Option α) :=
  match object.filter fun entry => entry.1 = name with
  | [] => .ok none
  | [entry] => asOption present entry.2
  | _ => .error (.duplicateField name)

/-- The entries of the object that no field takes are those of the flattened
generic tags. -/
def deserialize (externals : Externals) (forms : NostrForms) (object : List (String × JsonValue)) :
    Except JsonError Filter := do
  let ids ← field object "ids" (asSet (EventId.deserialize externals forms))
  let authors ← field object "authors" (asSet (PublicKey.deserialize externals forms))
  let kinds ← field object "kinds" (asSet Kind.deserialize)
  let search ← field object "search" asString
  let since ← field object "since" Timestamp.deserialize
  let until_ ← field object "until" Timestamp.deserialize
  let limit ← field object "limit" (asUnsigned 18446744073709551616)
  let genericTags ← deserializeGenericTags (object.filter fun entry => !fieldNames.contains entry.1)
  .ok { ids, authors, kinds, search, since, until_, limit, genericTags }

end Filter

/-! ## Which keys ask for a tag -/

namespace SingleLetterTag

variable {tag : SingleLetterTag}

theorem byte_lt (tag : SingleLetterTag) : tag.byte.toNat < 128 := by
  have alphabetic := tag.isAlphabetic
  simp only [isAsciiAlphabetic, Bool.or_eq_true, decide_eq_true_eq, UInt8.le_iff_toNat_le,
    UInt8.reduceToNat] at alphabetic
  omega

@[simp] theorem toNat_asChar (tag : SingleLetterTag) : tag.asChar.toNat = tag.byte.toNat := by
  have small := tag.byte_lt
  have valid : tag.byte.toNat.isValidChar := .inl (by omega)
  rw [asChar, Char.ofNat, dif_pos valid]
  rfl

@[simp] theorem toList_genericKey (tag : SingleLetterTag) :
    tag.genericKey.toList = ['#', tag.asChar] := String.toList_ofList

theorem fromChar_eq_some {character : Char} :
    fromChar character = some tag ↔ UInt8.ofNat character.toNat = tag.byte := by
  obtain ⟨byte, isAlphabetic⟩ := tag
  unfold fromChar fromByte
  split
  next => rw [Option.some.injEq, mk.injEq]
  next other =>
    constructor
    · intro found
      cases found
    · intro same
      rw [same] at other
      exact absurd isAlphabetic other

/-- Among the ASCII characters only the letter itself is read as the tag. -/
theorem eq_asChar {character : Char} (ascii : character.toNat < 128)
    (same : UInt8.ofNat character.toNat = tag.byte) : character = tag.asChar := by
  have number : character.toNat = tag.byte.toNat := by
    rw [← same, UInt8.toNat_ofNat_of_lt' (by change _ < 256; omega)]
  rw [asChar, ← number, Char.ofNat_toNat]

end SingleLetterTag

theorem TagKey.visitStr_eq_some {key : String} {tag : SingleLetterTag} :
    visitStr key = .ok (some tag) ↔
      ∃ character, key.toList = ['#', character] ∧ UInt8.ofNat character.toNat = tag.byte := by
  unfold visitStr
  split
  next character shape =>
    simp only [shape, List.cons.injEq, true_and, and_true, exists_eq_left']
    rw [← SingleLetterTag.fromChar_eq_some]
    cases SingleLetterTag.fromChar character <;> simp
  next other =>
    constructor
    · intro ignored
      cases ignored
    · intro asked
      obtain ⟨character, shape, _⟩ := asked
      exact absurd shape (other character)

@[simp] theorem TagKey.visitStr_genericKey (tag : SingleLetterTag) :
    visitStr tag.genericKey = .ok (some tag) := by
  apply visitStr_eq_some.mpr
  refine ⟨tag.asChar, tag.toList_genericKey, ?_⟩
  rw [tag.toNat_asChar, UInt8.ofNat_toNat]

/-- A single character outside ASCII whose last eight bits are an ASCII letter. -/
def Misread (key : String) : Prop :=
  ∃ character : Char, key.toList = ['#', character] ∧ 128 ≤ character.toNat ∧
    isAsciiAlphabetic (UInt8.ofNat character.toNat) = true

/-- A key is taken as a tag if and only if it is the sign and the letter of the
tag. -/
theorem TagKey.takes_iff (key : String) :
    (∀ tag, visitStr key = .ok (some tag) ↔ key = tag.genericKey) ↔ ¬ Misread key := by
  constructor
  · intro takes misread
    obtain ⟨character, shape, large, alphabetic⟩ := misread
    let tag : SingleLetterTag := ⟨UInt8.ofNat character.toNat, alphabetic⟩
    have own : key = tag.genericKey :=
      (takes tag).mp (visitStr_eq_some.mpr ⟨character, shape, rfl⟩)
    rw [own, tag.toList_genericKey] at shape
    have same : tag.asChar = character := by simpa using shape
    have small := tag.byte_lt
    rw [← tag.toNat_asChar, same] at small
    omega
  · intro read tag
    constructor
    · intro taken
      obtain ⟨character, shape, same⟩ := visitStr_eq_some.mp taken
      have ascii : character.toNat < 128 := by
        by_contra large
        exact read ⟨character, shape, not_lt.mp large, same ▸ tag.isAlphabetic⟩
      rw [SingleLetterTag.eq_asChar ascii same] at shape
      exact String.toList_inj.mp (shape.trans tag.toList_genericKey.symm)
    · intro own
      rw [own, visitStr_genericKey]

/-! ## What is stored -/

/-- The value of the last entry whose key is taken as the tag. -/
def takenValue (entries : List (String × JsonValue)) (tag : SingleLetterTag) : Option JsonValue :=
  (entries.reverse.find? fun entry => decide (TagKey.visitStr entry.1 = .ok (some tag))).map Prod.snd

theorem takenValue_concat (entries : List (String × JsonValue)) (last : String × JsonValue)
    (tag : SingleLetterTag) : takenValue (entries ++ [last]) tag =
      if TagKey.visitStr last.1 = .ok (some tag) then some last.2 else takenValue entries tag := by
  rw [takenValue, List.reverse_concat, List.find?_cons]
  split
  next taken => rw [if_pos (of_decide_eq_true taken), Option.map_some]
  next passed => rw [if_neg (of_decide_eq_false passed), takenValue]

theorem deserializeGenericTags_concat {entries : List (String × JsonValue)}
    {last : String × JsonValue} {genericTags : GenericTags} :
    deserializeGenericTags (entries ++ [last]) = .ok genericTags ↔
      ∃ earlier, deserializeGenericTags entries = .ok earlier ∧
        visitEntry earlier last = .ok genericTags := by
  unfold deserializeGenericTags
  rw [List.foldlM_append]
  cases entries.foldlM visitEntry .empty with
  | error error =>
      constructor
      · intro accepted
        cases accepted
      · intro accepted
        obtain ⟨_, failed, _⟩ := accepted
        cases failed
  | ok earlier =>
      have one : [last].foldlM visitEntry earlier = visitEntry earlier last := by
        rw [List.foldlM_cons]
        exact bind_pure _
      change [last].foldlM visitEntry earlier = _ ↔ _
      simp only [one, Except.ok.injEq, exists_eq_left']

/-- A tag has the values of the last key that was taken as it. -/
theorem deserializeGenericTags_spec {entries : List (String × JsonValue)}
    {genericTags : GenericTags} (accepted : deserializeGenericTags entries = .ok genericTags)
    (tag : SingleLetterTag) (values : SortedSet String) :
    genericTags.get? tag = some values ↔
      ∃ value, takenValue entries tag = some value ∧ asSet asString value = .ok values := by
  induction entries using List.reverseRecOn generalizing genericTags with
  | nil =>
      cases accepted
      simp [takenValue]
  | append_singleton entries last ih =>
      obtain ⟨earlier, before, visited⟩ := deserializeGenericTags_concat.mp accepted
      have stored := ih before
      rw [takenValue_concat]
      unfold visitEntry at visited
      split at visited
      next => cases visited
      next ignored =>
        cases visited
        rw [ignored, if_neg (by simp)]
        exact stored
      next other taken =>
        rw [taken]
        cases read : asSet asString last.2 with
        | error error =>
            rw [read] at visited
            cases visited
        | ok found =>
            rw [read] at visited
            cases visited
            rw [SortedTable.get?_put]
            by_cases same : tag = other
            · simp only [same, if_true, Option.some.injEq, exists_eq_left', read, Except.ok.injEq]
            · have different : ¬ other = tag := fun equal => same equal.symm
              simp only [same, different, if_false, Except.ok.injEq, Option.some.injEq, stored]

/-! ## Reading back what was written -/

theorem mapM_of_each {α ε : Type} {element : JsonValue → Except ε α} {written : α → JsonValue}
    (each : ∀ value, element (written value) = .ok value) (values : List α) :
    (values.map written).mapM element = .ok values := by
  induction values with
  | nil => rfl
  | cons value values ih =>
      rw [List.map_cons, List.mapM_cons, each, ih]
      rfl

theorem asSet_ofSet {α : Type} [LinearOrder α] {element : JsonValue → Except JsonError α}
    {written : α → JsonValue} (each : ∀ value, element (written value) = .ok value)
    (set : SortedSet α) : asSet element (ofSet written set) = .ok set := by
  have read : (set.elems.map written).mapM element = .ok set.elems := mapM_of_each each set.elems
  rw [ofSet, asSet, read]
  exact congrArg Except.ok set.ofList_elems

theorem visitEntry_written (genericTags : GenericTags) (tag : SingleLetterTag)
    (values : SortedSet String) :
    visitEntry genericTags (tag.genericKey, ofSet string values) =
      .ok (genericTags.put tag values) := by
  have read : asSet asString (ofSet string values) = .ok values :=
    asSet_ofSet (fun text => (rfl : asString (string text) = .ok text)) values
  rw [visitEntry, TagKey.visitStr_genericKey]
  dsimp only
  rw [read]
  rfl

theorem deserializeGenericTags_serialize (genericTags : GenericTags) :
    deserializeGenericTags (serializeGenericTags genericTags) = .ok genericTags := by
  have each : ∀ (entries : List (SingleLetterTag × SortedSet String)) (before : GenericTags),
      (entries.map fun entry => (entry.1.genericKey, ofSet string entry.2)).foldlM visitEntry before =
        .ok (entries.foldl (fun table entry => table.put entry.1 entry.2) before) := by
    intro entries
    induction entries with
    | nil => exact fun _ => rfl
    | cons first entries ih =>
        intro before
        rw [List.map_cons, List.foldlM_cons, visitEntry_written]
        exact ih _
  have whole := each genericTags.entries .empty
  rw [← SortedTable.ofEntries, SortedTable.ofEntries_entries] at whole
  exact whole

section RoundTrip

variable {externals : Externals} (hex : HexCodec externals) (forms : NostrForms)
include hex

theorem EventId.deserialize_written (id : EventId) :
    EventId.deserialize externals forms (string (externals.hexEncode id.val)) = .ok id := by
  have parsed : EventId.parse externals forms (externals.hexEncode id.val) = some id := by
    rw [EventId.parse, hex.encode, hex.decode]
  unfold EventId.deserialize
  simp only [asString]
  change (EventId.parse externals forms (externals.hexEncode id.val)).elim _ _ = _
  rw [parsed]
  rfl

omit hex in
/-- No hexadecimal digit is the letter that the other forms begin with. -/
theorem Json.hexDigit_ne_n {digit : Nat} (small : digit < 16) : Json.hexDigit digit ≠ 'n' := by
  have each : ∀ digit < 16, Json.hexDigit digit ≠ 'n' := by decide
  exact each digit small

theorem PublicKey.not_startsWith (publicKey : PublicKey) {beginning : String}
    (letter : beginning.toList.head? = some 'n') :
    startsWith (externals.hexEncode publicKey.val) beginning = false := by
  rw [hex.encode, startsWith, Json.lowercaseHex, String.toList_ofList]
  cases chars : beginning.toList with
  | nil =>
      rw [chars] at letter
      cases letter
  | cons char rest =>
      rw [chars, List.head?_cons, Option.some.injEq] at letter
      cases bytes : publicKey.val with
      | nil => rfl
      | cons first others =>
          have bound := first.toNat_lt
          have digit : (char == Json.hexDigit (first.toNat / 16)) = false := by
            rw [letter]
            exact beq_false_of_ne (Json.hexDigit_ne_n (by omega)).symm
          simp only [List.flatMap_cons, List.cons_append, List.isPrefixOf, digit, Bool.false_and]

theorem PublicKey.deserialize_written (publicKey : PublicKey) :
    PublicKey.deserialize externals forms (string (externals.hexEncode publicKey.val)) =
      .ok publicKey := by
  have parsed : PublicKey.parse externals forms (externals.hexEncode publicKey.val) =
      some publicKey := by
    have npub : startsWith (externals.hexEncode publicKey.val) "npub" = false :=
      PublicKey.not_startsWith hex publicKey (by decide)
    have nprofile : startsWith (externals.hexEncode publicKey.val) "nprofile" = false :=
      PublicKey.not_startsWith hex publicKey (by decide)
    have nostr : startsWith (externals.hexEncode publicKey.val) "nostr:" = false :=
      PublicKey.not_startsWith hex publicKey (by decide)
    rw [PublicKey.parse, npub, nprofile, nostr, hex.encode]
    exact hex.decode publicKey
  unfold PublicKey.deserialize
  simp only [asString]
  change (PublicKey.parse externals forms (externals.hexEncode publicKey.val)).elim _ _ = _
  rw [parsed]
  rfl

end RoundTrip

namespace Filter

theorem filter_entry (name other : String) (value : Option JsonValue) :
    (entry name value).filter (fun entry => entry.1 = other) =
      if name = other then entry name value else [] := by
  cases value with
  | none => simp [entry]
  | some value => by_cases same : name = other <;> simp [entry, same]

theorem genericKey_not_field (tag : SingleLetterTag) : tag.genericKey ∉ fieldNames := by
  have shapes : ∀ name ∈ fieldNames, name.toList.head? ≠ some '#' := by decide
  intro member
  apply shapes _ member
  rw [tag.toList_genericKey]
  rfl

theorem filter_serializeGenericTags (genericTags : GenericTags) {name : String}
    (known : name ∈ fieldNames) :
    (serializeGenericTags genericTags).filter (fun entry => entry.1 = name) = [] := by
  rw [List.filter_eq_nil_iff]
  intro entry member
  obtain ⟨⟨tag, values⟩, _, written⟩ := List.mem_map.mp member
  intro own
  have same : tag.genericKey = name := by
    rw [← of_decide_eq_true own, ← written]
  exact genericKey_not_field tag (same ▸ known)

theorem filter_unknown_entry {name : String} (known : name ∈ fieldNames) (value : Option JsonValue) :
    (entry name value).filter (fun entry => !fieldNames.contains entry.1) = [] := by
  cases value with
  | none => rfl
  | some value => simp [entry, known]

theorem filter_unknown_serializeGenericTags (genericTags : GenericTags) :
    (serializeGenericTags genericTags).filter (fun entry => !fieldNames.contains entry.1) =
      serializeGenericTags genericTags := by
  rw [List.filter_eq_self]
  intro entry member
  obtain ⟨⟨tag, values⟩, _, written⟩ := List.mem_map.mp member
  rw [← written]
  simpa using genericKey_not_field tag

/-- A field that stands at most once is read back. -/
theorem field_written {α : Type} {object : List (String × JsonValue)} {name : String}
    {present : JsonValue → Except JsonError α} {value : Option α} {written : α → JsonValue}
    (own : object.filter (fun entry => entry.1 = name) = entry name (value.map written))
    (each : ∀ given, value = some given → asOption present (written given) = .ok (some given)) :
    field object name present = .ok value := by
  rw [field, own]
  cases value with
  | none => rfl
  | some given => exact each given rfl

theorem asUnsigned_number {bound value : Nat} (small : value < bound) :
    asUnsigned bound (number value) = .ok value := by
  rw [asUnsigned, if_pos ⟨Int.natCast_nonneg value, Int.ofNat_lt.mpr small⟩, Int.toNat_natCast]

theorem kind_written (kind : UInt16) :
    Kind.deserialize (number kind.toNat) = .ok kind := by
  rw [Kind.deserialize, asUnsigned_number kind.toNat_lt]
  exact congrArg Except.ok UInt16.ofNat_toNat

theorem timestamp_written (time : Timestamp) :
    Timestamp.deserialize (number time.toNat) = .ok time := by
  rw [Timestamp.deserialize, asUnsigned_number time.toNat_lt]
  exact congrArg Except.ok UInt64.ofNat_toNat

theorem asOption_number {α : Type} {present : JsonValue → Except JsonError α} {value : Int}
    {given : α} (read : present (number value) = .ok given) :
    asOption present (number value) = .ok (some given) := congrArg (Except.map some) read

section Written

variable (externals : Externals) (filter : Filter)

/-- Each field finds its own entry and no other. -/
theorem filter_serialize :
    let own (name : String) := (filter.serialize externals).filter fun entry => entry.1 = name
    own "ids" = entry "ids" (filter.ids.map (ofSet fun id => string (externals.hexEncode id.val))) ∧
    own "authors" =
      entry "authors" (filter.authors.map (ofSet fun author => string (externals.hexEncode author.val))) ∧
    own "kinds" = entry "kinds" (filter.kinds.map (ofSet fun kind => number kind.toNat)) ∧
    own "search" = entry "search" (filter.search.map string) ∧
    own "since" = entry "since" (filter.since.map fun since => number since.toNat) ∧
    own "until" = entry "until" (filter.until_.map fun until_ => number until_.toNat) ∧
    own "limit" = entry "limit" (filter.limit.map fun limit : Nat => number limit) := by
  have generic : ∀ name ∈ fieldNames, (serializeGenericTags filter.genericTags).filter
      (fun entry => entry.1 = name) = [] := fun _ known => filter_serializeGenericTags _ known
  simp only [fieldNames, List.forall_mem_cons] at generic
  simp [serialize, List.filter_append, filter_entry, generic]

theorem filter_unknown_serialize :
    (filter.serialize externals).filter (fun entry => !fieldNames.contains entry.1) =
      serializeGenericTags filter.genericTags := by
  unfold serialize
  repeat rw [List.filter_append]
  simp only [filter_unknown_serializeGenericTags, filter_unknown_entry (show "ids" ∈ fieldNames by decide),
    filter_unknown_entry (show "authors" ∈ fieldNames by decide),
    filter_unknown_entry (show "kinds" ∈ fieldNames by decide),
    filter_unknown_entry (show "search" ∈ fieldNames by decide),
    filter_unknown_entry (show "since" ∈ fieldNames by decide),
    filter_unknown_entry (show "until" ∈ fieldNames by decide),
    filter_unknown_entry (show "limit" ∈ fieldNames by decide), List.nil_append]

end Written

theorem asOption_ofSet {α : Type} [LinearOrder α] {element : JsonValue → Except JsonError α}
    {written : α → JsonValue} (each : ∀ value, element (written value) = .ok value)
    (set : SortedSet α) : asOption (asSet element) (ofSet written set) = .ok (some set) :=
  congrArg (Except.map some) (asSet_ofSet each set)

/-- Every filter is read back from its JSON. -/
theorem deserialize_serialize {externals : Externals} (hex : HexCodec externals)
    (forms : NostrForms) (filter : Filter)
    (usize : ∀ limit, filter.limit = some limit → limit < 18446744073709551616) :
    deserialize externals forms (filter.serialize externals) = .ok filter := by
  obtain ⟨ids, authors, kinds, search, since, until_, limit⟩ := filter_serialize externals filter
  have ids := field_written ids fun given _ =>
    asOption_ofSet (EventId.deserialize_written hex forms) given
  have authors := field_written authors fun given _ =>
    asOption_ofSet (PublicKey.deserialize_written hex forms) given
  have kinds := field_written kinds fun given _ => asOption_ofSet kind_written given
  have search := field_written search fun given _ =>
    (rfl : asOption asString (string given) = .ok (some given))
  have since := field_written since fun given _ => asOption_number (timestamp_written given)
  have until_ := field_written until_ fun given _ => asOption_number (timestamp_written given)
  have limit := field_written limit fun given present =>
    asOption_number (asUnsigned_number (usize given present))
  have generic := deserializeGenericTags_serialize filter.genericTags
  rw [← filter_unknown_serialize externals filter] at generic
  unfold deserialize
  rw [ids, authors, kinds, search, since, until_, limit, generic]
  rfl

/-- The keys that the fields take ask for no tag. -/
theorem takenValue_unknown (object : List (String × JsonValue)) (tag : SingleLetterTag) :
    takenValue (object.filter fun entry => !fieldNames.contains entry.1) tag =
      takenValue object tag := by
  have untaken : ∀ name ∈ fieldNames, TagKey.visitStr name ≠ .ok (some tag) := by
    intro name known taken
    obtain ⟨character, shape, _⟩ := TagKey.visitStr_eq_some.mp taken
    have shapes : ∀ name ∈ fieldNames, name.toList.head? ≠ some '#' := by decide
    apply shapes name known
    rw [shape]
    rfl
  induction object using List.reverseRecOn with
  | nil => rfl
  | append_singleton object last ih =>
      rw [List.filter_append, takenValue_concat, ← ih]
      by_cases known : last.1 ∈ fieldNames
      · simp [known, untaken last.1 known]
      · simp [known, takenValue_concat]

theorem deserialize_genericTags {externals : Externals} {forms : NostrForms}
    {object : List (String × JsonValue)} {filter : Filter}
    (accepted : deserialize externals forms object = .ok filter) :
    deserializeGenericTags (object.filter fun entry => !fieldNames.contains entry.1) =
      .ok filter.genericTags := by
  unfold deserialize at accepted
  obtain ⟨_, _, accepted⟩ := ok_of_bind accepted
  obtain ⟨_, _, accepted⟩ := ok_of_bind accepted
  obtain ⟨_, _, accepted⟩ := ok_of_bind accepted
  obtain ⟨_, _, accepted⟩ := ok_of_bind accepted
  obtain ⟨_, _, accepted⟩ := ok_of_bind accepted
  obtain ⟨_, _, accepted⟩ := ok_of_bind accepted
  obtain ⟨_, _, accepted⟩ := ok_of_bind accepted
  obtain ⟨_, read, accepted⟩ := ok_of_bind accepted
  cases accepted
  exact read

/-- Every filter is read back from its JSON; a tag has the values of the last key
that is taken as it; and a key is taken as a tag exactly if it is the sign and the
letter of the tag, unless the key is misread. -/
theorem deserialize_takes_iff (externals : Externals) (forms : NostrForms)
    (hex : HexCodec externals) :
    (∀ filter : Filter, (∀ limit, filter.limit = some limit → limit < 18446744073709551616) →
      deserialize externals forms (filter.serialize externals) = .ok filter) ∧
    (∀ object filter, deserialize externals forms object = .ok filter →
      ∀ tag values, filter.genericTags.get? tag = some values ↔
        ∃ value, takenValue object tag = some value ∧ asSet asString value = .ok values) ∧
    ∀ object : List (String × JsonValue),
      (∀ entry ∈ object, ∀ tag, TagKey.visitStr entry.1 = .ok (some tag) ↔
        entry.1 = tag.genericKey) ↔
      ∀ entry ∈ object, ¬ Misread entry.1 := by
  refine ⟨fun filter usize => deserialize_serialize hex forms filter usize, ?_, ?_⟩
  · intro object filter accepted tag values
    rw [← takenValue_unknown object tag]
    exact deserializeGenericTags_spec (deserialize_genericTags accepted) tag values
  · intro object
    exact forall₂_congr fun entry _ => TagKey.takes_iff entry.1

/-- No text is bech32 or a URI. -/
def noForms : NostrForms where
  eventIdFromBech32 _ := none
  eventIdFromNostrUri _ := none
  publicKeyFromBech32 _ := none
  publicKeyFromNostrUri _ := none

/-- The character `š`. -/
def caronObject : List (String × JsonValue) :=
  [(String.ofList ['#', Char.ofNat 353], array [string "value"])]

theorem deserialize_takes_iff_letter :
    ∃ filter, deserialize hexExternals noForms [("#t", array [string "value"])] = .ok filter ∧
      (∀ tag values, filter.genericTags.get? tag = some values ↔
        ∃ value, takenValue [("#t", array [string "value"])] tag = some value ∧
          asSet asString value = .ok values) ∧
      deserialize hexExternals noForms (filter.serialize hexExternals) = .ok filter := by
  have spec := deserialize_takes_iff hexExternals noForms hexExternals_hexCodec
  refine ⟨_, rfl, spec.2.1 _ _ rfl, spec.1 _ ?_⟩
  intro limit present
  cases present

/-- The key is outside ASCII, and its values are those of `#a`. -/
theorem deserialize_not_takes :
    (∃ filter, deserialize hexExternals noForms caronObject = .ok filter ∧
      (filter.genericTags.get? ⟨97, rfl⟩).map SortedSet.elems = some ["value"]) ∧
    ¬ ∀ entry ∈ caronObject, ∀ tag : SingleLetterTag,
      TagKey.visitStr entry.1 = .ok (some tag) ↔ entry.1 = tag.genericKey := by
  refine ⟨⟨_, rfl, rfl⟩, ?_⟩
  intro takes
  have member : (String.ofList ['#', Char.ofNat 353], array [string "value"]) ∈ caronObject :=
    List.mem_singleton.mpr rfl
  apply (TagKey.takes_iff _).mp (takes _ member)
  exact ⟨Char.ofNat 353, String.toList_ofList, by decide, by decide⟩

end Filter

end RustNostr
