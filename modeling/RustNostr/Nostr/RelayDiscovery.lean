import Mathlib
import RustNostr.Library.Splitting
import RustNostr.Nostr.TagValues

/-!
# Tags of relay discovery

What monitors tell about relays, written as tags and read (`nostr/src/nips/nip66.rs`).
-/

set_option autoImplicit false

namespace RustNostr

open Library

/-! ## Durations -/

/-- `core::time::Duration` -/
structure Duration where
  secs : UInt64
  nanos : Nat
  small : nanos < 1000000000
  deriving DecidableEq

namespace Duration

def asMillis (time : Duration) : Nat := time.secs.toNat * 1000 + time.nanos / 1000000

def fromMillis (millis : UInt64) : Duration where
  secs := .ofNat (millis.toNat / 1000)
  nanos := millis.toNat % 1000 * 1000000
  small := by omega

/-- Milliseconds that fit in an `u64`, and nothing smaller. -/
def WholeMillis (time : Duration) : Prop := 1000000 ∣ time.nanos ∧ time.asMillis < 2 ^ 64

theorem fromMillis_asMillis {time : Duration} (whole : time.WholeMillis) :
    fromMillis (.ofNat time.asMillis) = time := by
  obtain ⟨secs, nanos, small⟩ := time
  obtain ⟨⟨millis, shape⟩, fits⟩ := whole
  dsimp only at shape
  subst shape
  have part : 1000000 * millis / 1000000 = millis := Nat.mul_div_cancel_left millis (by decide)
  rw [asMillis, part] at fits
  have read : (UInt64.ofNat (secs.toNat * 1000 + millis)).toNat = secs.toNat * 1000 + millis :=
    Nat.mod_eq_of_lt fits
  have front : (secs.toNat * 1000 + millis) / 1000 = secs.toNat := by omega
  have back : (secs.toNat * 1000 + millis) % 1000 * 1000000 = 1000000 * millis := by omega
  simp only [fromMillis, asMillis, part, read, front, back, UInt64.ofNat_toNat]

end Duration

/-! ## Names -/

/-- `FromStr` of an enumeration with a variant for the other texts -/
def namedOr {α : Type} (names : List (String × α)) (other : String → α) (value : String) : α :=
  (names.lookup value).getD (other value)

/-- Every value is written by its name, the others by their texts. -/
structure WrittenAs {α : Type} (names : List (String × α)) (other : String → α) (asStr : α → String) : Prop where
  named : ∀ entry ∈ names, asStr entry.2 = entry.1
  free : ∀ text, asStr (other text) = text
  covered : ∀ value, (∃ text, value = other text) ∨ names.lookup (asStr value) = some value

section Names

variable {α : Type} {names : List (String × α)} {other : String → α} {asStr : α → String}

theorem namedOr_of_notMem {text : String} (free : text ∉ names.map Prod.fst) :
    namedOr names other text = other text := by
  have missing : names.lookup text = none := by
    rw [List.lookup_eq_none_iff]
    intro entry member
    rw [bne_iff_ne]
    exact fun same => free (List.mem_map.mpr ⟨entry, member, same.symm⟩)
  rw [namedOr, missing]
  rfl

namespace WrittenAs

theorem asStr_namedOr (written : WrittenAs names other asStr) (text : String) :
    asStr (namedOr names other text) = text := by
  rw [namedOr]
  cases found : names.lookup text with
  | none => exact written.free text
  | some value =>
      obtain ⟨before, after, shape, _⟩ := List.lookup_eq_some_iff.mp found
      exact written.named (text, value) (by simp [shape])

theorem namedOr_asStr (written : WrittenAs names other asStr) {value : α}
    (own : ∀ text, value = other text → text ∉ names.map Prod.fst) : namedOr names other (asStr value) = value := by
  rcases written.covered value with ⟨text, shape⟩ | found
  · subst shape
    rw [written.free]
    exact namedOr_of_notMem (own text rfl)
  · rw [namedOr, found]
    rfl

end WrittenAs

end Names

inductive NetworkType where
  | clearnet
  | tor
  | i2p
  | loki
  | other (value : String)
  deriving DecidableEq

namespace NetworkType

def names : List (String × NetworkType) :=
  [("clearnet", clearnet), ("tor", tor), ("i2p", i2p), ("loki", loki)]

def fromStr : String → NetworkType := namedOr names other

def asStr : NetworkType → String
  | clearnet => "clearnet"
  | tor => "tor"
  | i2p => "i2p"
  | loki => "loki"
  | other value => value

theorem written : WrittenAs names other asStr where
  named := by simp [names, asStr]
  free _ := rfl
  covered value := by cases value <;> first | exact .inl ⟨_, rfl⟩ | exact .inr rfl

end NetworkType

inductive RelayType where
  | publicOutbox
  | publicInbox
  | privateStorage
  | privateInbox
  | search
  | directory
  | community
  | algo
  | archival
  | localCache
  | blobRelays
  | broadcast
  | proxy
  | trusted
  | push
  | other (value : String)
  deriving DecidableEq

namespace RelayType

def names : List (String × RelayType) := [
  ("PublicOutbox", publicOutbox), ("PublicInbox", publicInbox), ("PrivateStorage", privateStorage),
  ("PrivateInbox", privateInbox), ("Search", search), ("Directory", directory), ("Community", community),
  ("Algo", algo), ("Archival", archival), ("LocalCache", localCache), ("BlobRelays", blobRelays),
  ("Broadcast", broadcast), ("Proxy", proxy), ("Trusted", trusted), ("Push", push)]

def fromStr : String → RelayType := namedOr names other

def asStr : RelayType → String
  | publicOutbox => "PublicOutbox"
  | publicInbox => "PublicInbox"
  | privateStorage => "PrivateStorage"
  | privateInbox => "PrivateInbox"
  | search => "Search"
  | directory => "Directory"
  | community => "Community"
  | algo => "Algo"
  | archival => "Archival"
  | localCache => "LocalCache"
  | blobRelays => "BlobRelays"
  | broadcast => "Broadcast"
  | proxy => "Proxy"
  | trusted => "Trusted"
  | push => "Push"
  | other value => value

theorem written : WrittenAs names other asStr where
  named := by simp [names, asStr]
  free _ := rfl
  covered value := by cases value <;> first | exact .inl ⟨_, rfl⟩ | exact .inr rfl

end RelayType

inductive Requirement where
  | auth
  | writes
  | pow
  | payment
  | other (value : String)
  deriving DecidableEq

namespace Requirement

def names : List (String × Requirement) :=
  [("auth", auth), ("writes", writes), ("pow", pow), ("payment", payment)]

def fromStr : String → Requirement := namedOr names other

def asStr : Requirement → String
  | auth => "auth"
  | writes => "writes"
  | pow => "pow"
  | payment => "payment"
  | other value => value

theorem written : WrittenAs names other asStr where
  named := by simp [names, asStr]
  free _ := rfl
  covered value := by cases value <;> first | exact .inl ⟨_, rfl⟩ | exact .inr rfl

end Requirement

/-! ## Negation -/

structure BoolTag where
  value : String
  yes : Bool
  deriving DecidableEq

namespace BoolTag

def negation : List Char := ['!']

/-- The value is what stands behind the first mark, wherever that is. -/
def parse (rawValue : String) : BoolTag :=
  match splitOnce negation rawValue.toList with
  | some (_, rest) => { value := String.ofList rest, yes := false }
  | none => { value := rawValue, yes := true }

def toString (value : String) (yes : Bool) : String := (if yes then "" else String.ofList negation) ++ value

/-- A text with a mark begins with one. -/
def MarkInFront (text : String) : Prop := '!' ∈ text.toList → text.toList.head? = some '!'

theorem parse_of_notMem {text : String} (unmarked : '!' ∉ text.toList) :
    parse text = { value := text, yes := true } := by
  have uncut : splitOnce negation text.toList = none := by
    rw [splitOnce_eq_none, negation, List.singleton_infix_iff]
    exact unmarked
  rw [parse, uncut]

theorem parse_of_append {text : String} {before after : List Char} (shape : text.toList = before ++ '!' :: after)
    (first : '!' ∉ before) : parse text = { value := String.ofList after, yes := false } := by
  have cut : splitOnce negation text.toList = some (before, after) := by
    rw [shape]
    refine (splitOnce_append (List.cons_ne_nil _ _) before after).mpr ?_
    simpa [negation, List.singleton_infix_iff] using first
  rw [parse, cut]

theorem toList_toString (value : String) (yes : Bool) :
    (toString value yes).toList = (if yes then [] else negation) ++ value.toList := by
  cases yes <;> simp [toString]

theorem toString_yes (value : String) : toString value true = value := by simp [toString]

theorem parse_toString {value : String} {yes : Bool} (clear : yes = true → '!' ∉ value.toList) :
    parse (toString value yes) = { value, yes } := by
  cases yes with
  | false =>
      have shape : (toString value false).toList = [] ++ '!' :: value.toList := toList_toString value false
      rw [parse_of_append shape List.not_mem_nil, String.ofList_toList]
  | true => rw [toString_yes, parse_of_notMem (clear rfl)]

theorem parse_yes_iff (text : String) : (parse text).yes = true ↔ '!' ∉ text.toList := by
  by_cases marked : '!' ∈ text.toList
  · obtain ⟨before, after, shape, first⟩ := List.eq_append_cons_of_mem marked
    rw [parse_of_append shape first]
    simp [marked]
  · rw [parse_of_notMem marked]
    simp [marked]

/-- What is read as negated begins with the mark, if no text has its first mark further behind. -/
theorem parse_no_iff_iff (text : String) :
    ((parse text).yes = false ↔ text.toList.head? = some '!') ↔ MarkInFront text := by
  rw [← Bool.not_eq_true, parse_yes_iff, not_not, MarkInFront]
  exact ⟨Iff.mp, fun front => ⟨front, List.mem_of_mem_head?⟩⟩

theorem toString_parse {text : String} (front : MarkInFront text) :
    toString (parse text).value (parse text).yes = text := by
  by_cases marked : '!' ∈ text.toList
  · obtain ⟨before, after, shape, first⟩ := List.eq_append_cons_of_mem marked
    have begins := front marked
    cases before with
    | nil =>
        rw [parse_of_append shape first, ← String.toList_inj, toList_toString, shape, String.toList_ofList]
        rfl
    | cons char before =>
        rw [shape, List.cons_append, List.head?_cons, Option.some_inj] at begins
        exact absurd (begins ▸ List.mem_cons_self) first
  · rw [parse_of_notMem marked, toString_yes]

end BoolTag

/-! ## Tags -/

inductive Nip66Tag where
  | rttOpen (time : Duration)
  | rttRead (time : Duration)
  | rttWrite (time : Duration)
  | networkType (networkType : NetworkType)
  | relayType (relayType : RelayType)
  | nip (nip : String)
  | requirement (requirement : Requirement) (isRequired : Bool)
  | topic (topic : String)
  | kind (kind : Kind) (isAccepted : Bool)
  | geohash (geohash : String)
  deriving BEq

def Kind.parseText (text : String) : Except Error Kind :=
  match Kind.fromStr text.toList with
  | some kind => .ok kind
  | none => .error ⟨.malformed, parseIntError text.toList⟩

theorem parseUnsigned_lt {bound number : Nat} {text : List Char} (read : parseUnsigned bound text = some number) :
    number < bound := by
  unfold parseUnsigned at read
  split at read
  all_goals
    dsimp only at read
    split at read
    next => cases read
    next =>
      split at read
      next small => cases read; exact small
      next => cases read

namespace Nip66Tag

def parseTime (values : List String) (tag : String) : Except Error Duration :=
  (takeAndParse parseU64 tag values).map fun (time, _) => Duration.fromMillis time

def parseRequirement (values : List String) : Except Error Nip66Tag := do
  let (value, _) ← takeString "requirement" values
  let { value, yes } := BoolTag.parse value
  .ok (requirement (Requirement.fromStr value) yes)

def parseKind (values : List String) : Except Error Nip66Tag := do
  let (value, _) ← takeString "kind" values
  let { value, yes } := BoolTag.parse value
  let number ← Kind.parseText value
  .ok (kind number yes)

def parse (tag : List String) : Except Error Nip66Tag :=
  match tag with
  | [] => .error .missingTagKind
  | "rtt-open" :: values => (parseTime values "rtt-open").map rttOpen
  | "rtt-read" :: values => (parseTime values "rtt-read").map rttRead
  | "rtt-write" :: values => (parseTime values "rtt-write").map rttWrite
  | "n" :: values => (takeString "network type" values).map fun (value, _) => networkType (NetworkType.fromStr value)
  | "T" :: values => (takeString "relay type" values).map fun (value, _) => relayType (RelayType.fromStr value)
  | "N" :: values => (takeString "NIP" values).map fun (value, _) => nip value
  | "R" :: values => parseRequirement values
  | "t" :: values => (takeString "topic" values).map fun (value, _) => topic value
  | "k" :: values => parseKind values
  | "g" :: values => (takeString "geohash" values).map fun (value, _) => geohash value
  | _ => .error .unknownTag

def kindAndValue : Nip66Tag → String × String
  | rttOpen time => ("rtt-open", toString time.asMillis)
  | rttRead time => ("rtt-read", toString time.asMillis)
  | rttWrite time => ("rtt-write", toString time.asMillis)
  | networkType value => ("n", value.asStr)
  | relayType value => ("T", value.asStr)
  | nip value => ("N", value)
  | requirement value isRequired => ("R", BoolTag.toString value.asStr isRequired)
  | topic value => ("t", value)
  | kind number isAccepted => ("k", BoolTag.toString (toString number.asU16.toNat) isAccepted)
  | geohash value => ("g", value)

def toTag (tag : Nip66Tag) : Tag := ⟨[(kindAndValue tag).1, (kindAndValue tag).2], List.cons_ne_nil _ _⟩

/-! ## What is written is read -/

/-- A text that is no standard name, and begins with no mark. -/
def OwnText {α : Type} (names : List (String × α)) (text : String) : Prop :=
  text ∉ names.map Prod.fst ∧ text.toList.head? ≠ some '!'

/-- Times are whole milliseconds, and the other texts are texts of their own. -/
def Proper : Nip66Tag → Prop
  | rttOpen time | rttRead time | rttWrite time => time.WholeMillis
  | networkType (.other text) => OwnText NetworkType.names text
  | relayType (.other text) => OwnText RelayType.names text
  | requirement (.other text) _ => OwnText Requirement.names text
  | _ => True

/-- What a relay requires is written without a mark. -/
def Unmarked : Nip66Tag → Prop
  | requirement (.other text) true => '!' ∉ text.toList
  | _ => True

theorem kind_beq {left right : Kind} (same : (left == right) = true) (isAccepted : Bool) :
    (kind left isAccepted == kind right isAccepted) = true := by
  change (left == right && isAccepted == isAccepted) = true
  rw [same, beq_self_eq_true, Bool.and_self]

theorem beq_self (tag : Nip66Tag) : (tag == tag) = true := by
  cases tag with
  | kind number isAccepted => exact kind_beq (Kind.beq_iff.mpr rfl) isAccepted
  | requirement required isRequired =>
      change (required == required && isRequired == isRequired) = true
      rw [beq_self_eq_true, beq_self_eq_true, Bool.and_self]
  | rttOpen value | rttRead value | rttWrite value | networkType value | relayType value | nip value | topic value
  | geohash value =>
      change (value == value) = true
      exact beq_self_eq_true value

theorem parseTime_asMillis {time : Duration} (whole : time.WholeMillis) (tag : String) :
    parseTime [toString time.asMillis] tag = .ok time := by
  have fits : (UInt64.ofNat time.asMillis).toNat = time.asMillis := Nat.mod_eq_of_lt whole.2
  have read : takeAndParse parseU64 tag [toString (UInt64.ofNat time.asMillis).toNat] = .ok (.ofNat time.asMillis, []) :=
    takeAndParse_of_ok (parseU64_toString _)
  rw [fits] at read
  rw [parseTime, read]
  exact congrArg Except.ok (Duration.fromMillis_asMillis whole)

theorem fromStr_asStr_network {network : NetworkType} (proper : (networkType network).Proper) :
    NetworkType.fromStr network.asStr = network :=
  NetworkType.written.namedOr_asStr fun _ shape => by subst shape; exact proper.1

theorem fromStr_asStr_relay {relay : RelayType} (proper : (relayType relay).Proper) :
    RelayType.fromStr relay.asStr = relay :=
  RelayType.written.namedOr_asStr fun _ shape => by subst shape; exact proper.1

theorem fromStr_asStr_requirement {required : Requirement} {isRequired : Bool}
    (proper : (requirement required isRequired).Proper) : Requirement.fromStr required.asStr = required :=
  Requirement.written.namedOr_asStr fun _ shape => by subst shape; exact proper.1

theorem parseText_asU16 (number : Kind) :
    Kind.parseText (toString number.asU16.toNat) = .ok (.fromU16 number.asU16) := by
  rw [Kind.parseText, toList_toString_nat, Kind.fromStr_toDigits]

theorem unmarked_iff (required : Requirement) (isRequired : Bool) : (requirement required isRequired).Unmarked ↔
    (isRequired = true → '!' ∉ required.asStr.toList) := by
  cases isRequired with
  | false => exact iff_of_true (by cases required <;> trivial) nofun
  | true =>
      rw [eq_self, true_imp_iff]
      cases required with
      | other text => exact Iff.rfl
      | auth | writes | pow | payment => exact iff_of_true trivial (by decide)

theorem parse_requirement (text : String) (rest : List String) : parse ("R" :: text :: rest) =
    .ok (requirement (Requirement.fromStr (BoolTag.parse text).value) (BoolTag.parse text).yes) := rfl

theorem parse_kind (text : String) (rest : List String) : parse ("k" :: text :: rest) =
    (Kind.parseText (BoolTag.parse text).value).map (kind · (BoolTag.parse text).yes) := by
  change (Kind.parseText (BoolTag.parse text).value >>= fun number => .ok (kind number (BoolTag.parse text).yes)) = _
  cases Kind.parseText (BoolTag.parse text).value <;> rfl

theorem parse_toTag_requirement_iff {required : Requirement} {isRequired : Bool}
    (proper : (requirement required isRequired).Proper) :
    (∃ back, parse (toTag (requirement required isRequired)).buf = .ok back ∧
      (back == requirement required isRequired) = true) ↔ (requirement required isRequired).Unmarked := by
  rw [unmarked_iff]
  change (∃ back, parse ["R", BoolTag.toString required.asStr isRequired] = .ok back ∧ _) ↔ _
  rw [parse_requirement]
  constructor
  · rintro ⟨back, read, same⟩ yes
    subst yes
    cases read
    have kept := (Bool.and_eq_true _ _).mp same
    rw [BoolTag.toString_yes] at kept
    exact (BoolTag.parse_yes_iff _).mp (beq_iff_eq.mp kept.2)
  · intro clear
    rw [BoolTag.parse_toString clear, fromStr_asStr_requirement proper]
    exact ⟨_, rfl, beq_self _⟩

theorem parse_toTag_kind (number : Kind) (isAccepted : Bool) :
    parse (toTag (kind number isAccepted)).buf = .ok (kind (.fromU16 number.asU16) isAccepted) := by
  change parse ["k", BoolTag.toString (toString number.asU16.toNat) isAccepted] = _
  have clear : '!' ∉ (toString number.asU16.toNat).toList := by
    rw [toList_toString_nat]
    exact notMem_toDigits rfl _
  rw [parse_kind, BoolTag.parse_toString fun _ => clear, parseText_asU16]
  rfl

theorem parse_toTag_iff {tag : Nip66Tag} (proper : tag.Proper) :
    (∃ back, parse (toTag tag).buf = .ok back ∧ (back == tag) = true) ↔ tag.Unmarked := by
  have whole {tag : Nip66Tag} (unmarked : tag.Unmarked) (read : parse (toTag tag).buf = .ok tag) :
      (∃ back, parse (toTag tag).buf = .ok back ∧ (back == tag) = true) ↔ tag.Unmarked :=
    iff_of_true ⟨tag, read, beq_self tag⟩ unmarked
  cases tag with
  | rttOpen time => exact whole trivial (congrArg (Except.map rttOpen) (parseTime_asMillis proper "rtt-open"))
  | rttRead time => exact whole trivial (congrArg (Except.map rttRead) (parseTime_asMillis proper "rtt-read"))
  | rttWrite time => exact whole trivial (congrArg (Except.map rttWrite) (parseTime_asMillis proper "rtt-write"))
  | networkType network => exact whole trivial (congrArg (Except.ok ∘ networkType) (fromStr_asStr_network proper))
  | relayType relay => exact whole trivial (congrArg (Except.ok ∘ relayType) (fromStr_asStr_relay proper))
  | nip value | topic value | geohash value => exact whole trivial rfl
  | requirement required isRequired => exact parse_toTag_requirement_iff proper
  | kind number isAccepted =>
      have same : (Kind.fromU16 number.asU16 == number) = true := Kind.beq_iff.mpr (Kind.asU16_fromU16 _)
      exact iff_of_true ⟨_, parse_toTag_kind number isAccepted, kind_beq same isAccepted⟩ trivial

/-! ## What is read is written -/

def negated : Nip66Tag → Bool
  | requirement _ isRequired => !isRequired
  | kind _ isAccepted => !isAccepted
  | _ => false

/-- Texts that differ only in how the number behind their mark is written. -/
def SameNumber (text printed : String) : Prop :=
  ∃ sign digits number, (sign = [] ∨ sign = BoolTag.negation) ∧ parseUnsigned 65536 digits = some number ∧
    text.toList = sign ++ digits ∧ printed.toList = sign ++ (toString number).toList

/-- The tag is written with the text, for a kind up to the form of its number. -/
def Reprints (name text : String) (tag : Nip66Tag) : Prop :=
  ∃ printed, (toTag tag).buf = [name, printed] ∧
    match tag with
    | kind .. => SameNumber text printed
    | _ => printed = text

theorem parseUnsigned_of_parseText {text : String} {number : Kind} (read : Kind.parseText text = .ok number) :
    parseUnsigned 65536 text.toList = some number.asU16.toNat := by
  rw [Kind.parseText] at read
  split at read
  next found =>
    cases read
    rw [Kind.fromStr, Option.map_eq_some_iff] at found
    obtain ⟨value, found, shape⟩ := found
    have small := parseUnsigned_lt found
    rw [← shape, Kind.asU16_fromU16, found]
    exact congrArg some (Nat.mod_eq_of_lt small).symm
  next => cases read

theorem reprints_requirement {text : String} (front : BoolTag.MarkInFront text) :
    Reprints "R" text
      (requirement (Requirement.fromStr (BoolTag.parse text).value) (BoolTag.parse text).yes) := by
  refine ⟨_, rfl, ?_⟩
  change BoolTag.toString (Requirement.asStr (Requirement.fromStr _)) _ = text
  rw [Requirement.fromStr, Requirement.written.asStr_namedOr, BoolTag.toString_parse front]

theorem reprints_kind {text : String} {number : Kind} (front : BoolTag.MarkInFront text)
    (read : Kind.parseText (BoolTag.parse text).value = .ok number) :
    Reprints "k" text (kind number (BoolTag.parse text).yes) := by
  have whole : text.toList = (if (BoolTag.parse text).yes then [] else BoolTag.negation) ++
      (BoolTag.parse text).value.toList := by
    rw [← BoolTag.toList_toString, BoolTag.toString_parse front]
  have sign : (if (BoolTag.parse text).yes then [] else BoolTag.negation) = [] ∨
      (if (BoolTag.parse text).yes then [] else BoolTag.negation) = BoolTag.negation := by
    split
    · exact .inl rfl
    · exact .inr rfl
  exact ⟨_, rfl, _, _, _, sign, parseUnsigned_of_parseText read, whole, BoolTag.toList_toString _ _⟩

theorem negated_and_reprints_iff {name text : String} {rest : List String} {tag : Nip66Tag}
    (marked : name = "R" ∨ name = "k") (read : parse (name :: text :: rest) = .ok tag) :
    ((tag.negated = true ↔ text.toList.head? = some '!') ∧ tag.Reprints name text) ↔ BoolTag.MarkInFront text := by
  rw [← BoolTag.parse_no_iff_iff]
  rcases marked with rfl | rfl
  · rw [parse_requirement] at read
    cases read
    rw [negated, Bool.not_eq_true']
    exact and_iff_left_of_imp fun front => reprints_requirement ((BoolTag.parse_no_iff_iff text).mp front)
  · rw [parse_kind] at read
    cases number : Kind.parseText (BoolTag.parse text).value with
    | error => rw [number] at read; cases read
    | ok value =>
        rw [number] at read
        cases read
        rw [negated, Bool.not_eq_true']
        exact and_iff_left_of_imp fun front => reprints_kind ((BoolTag.parse_no_iff_iff text).mp front) number

/-- A tag comes back, and its mark is read as it stands, unless a mark stands inside a text
that does not begin with one. -/
theorem codec_iff_marks_in_front (tag : Nip66Tag) :
    (tag.Proper → ((∃ back, parse (toTag tag).buf = .ok back ∧ (back == tag) = true) ↔ tag.Unmarked)) ∧
    ∀ (name text : String) (rest : List String), name = "R" ∨ name = "k" →
      parse (name :: text :: rest) = .ok tag →
      (((tag.negated = true ↔ text.toList.head? = some '!') ∧ tag.Reprints name text) ↔ BoolTag.MarkInFront text) :=
  ⟨parse_toTag_iff, fun _ _ _ => negated_and_reprints_iff⟩

/-- What a relay requires is read as what it does not require, and under another name. -/
theorem parse_toTag_inner_mark :
    (requirement (.other "pay!now") true).Proper ∧
      parse (toTag (requirement (.other "pay!now") true)).buf = .ok (requirement (.other "now") false) ∧
      (requirement (.other "now") false == requirement (.other "pay!now") true) = false ∧
      parse ["k", "1!7"] = .ok (kind (.fromU16 7) false) ∧ "1!7".toList.head? ≠ some '!' :=
  ⟨And.intro (by decide) (by decide), rfl, by decide, rfl, by decide⟩

theorem codec_iff_marks_in_front_invite :
    (∃ back, parse (toTag (requirement (.other "invite") true)).buf = .ok back ∧
      (back == requirement (.other "invite") true) = true) ∧
    (((kind (.fromU16 7) false).negated = true ↔ "!07".toList.head? = some '!') ∧
      Reprints "k" "!07" (kind (.fromU16 7) false)) :=
  have unmarked : '!' ∉ "invite".toList := by decide
  ⟨((codec_iff_marks_in_front (requirement (.other "invite") true)).1 (And.intro (by decide) (by decide))).mpr unmarked,
    ((codec_iff_marks_in_front (kind (.fromU16 7) false)).2 "k" "!07" [] (.inr rfl) rfl).mpr fun _ => rfl⟩

end Nip66Tag

end RustNostr
