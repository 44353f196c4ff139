import Mathlib
import RustNostr.Nostr.ExternalContent
import RustNostr.Nostr.Parser

/-!
# Kinds of external content

The kinds that external content is of, and their texts (`nostr/src/nips/nip73.rs`).
-/

set_option autoImplicit false

namespace RustNostr

open Library

inductive Nip73Kind where
  | url
  | book
  | geohash
  | movie
  | paper
  | hashtag
  | podcastFeed
  | podcastEpisode
  | podcastPublisher
  | blockchainTransaction (blockchain : String)
  | blockchainAddress (blockchain : String)
  deriving DecidableEq

def ExternalContentId.kind {crate : UrlCrate} : ExternalContentId crate → Nip73Kind
  | url _ => .url
  | hashtag _ => .hashtag
  | geohash _ => .geohash
  | book _ => .book
  | podcastFeed _ => .podcastFeed
  | podcastEpisode _ => .podcastEpisode
  | podcastPublisher _ => .podcastPublisher
  | movie _ => .movie
  | paper _ => .paper
  | blockchainTransaction chain _ _ => .blockchainTransaction chain
  | blockchainAddress chain _ _ => .blockchainAddress chain

/-- `str::trim` -/
def trim (text : List Char) : List Char :=
  ((text.dropWhile Parser.isWhitespace).reverse.dropWhile Parser.isWhitespace).reverse

/-- A text with anything but digits behind its sign is no number. -/
theorem parseUnsigned_of_letter (bound : Nat) {text : List Char} {char : Char} (member : char ∈ text)
    (unsigned : char ≠ '+') (digit : char.isDigit = false) : parseUnsigned bound text = none := by
  have bad : ∀ digits : List Char, char ∈ digits → (digits.isEmpty || !digits.all Char.isDigit) = true := by
    intro digits member
    have some_ : digits.all Char.isDigit = false := List.all_eq_false.mpr ⟨char, member, by simp [digit]⟩
    rw [some_, Bool.not_false, Bool.or_true]
  unfold parseUnsigned
  split
  next rest =>
    rw [List.mem_cons] at member
    exact if_pos (bad rest (member.resolve_left unsigned))
  next => exact if_pos (bad text member)

namespace Nip73Kind

def display : Nip73Kind → String
  | url => "web"
  | book => "isbn"
  | geohash => "geo"
  | movie => "isan"
  | paper => "doi"
  | hashtag => "#"
  | podcastFeed => "podcast:guid"
  | podcastEpisode => "podcast:item:guid"
  | podcastPublisher => "podcast:publisher:guid"
  | blockchainTransaction blockchain => blockchain ++ ":tx"
  | blockchainAddress blockchain => blockchain ++ ":address"

/-- The text ends in a colon and the name, and has no other colon. -/
def EndsIn (name text : List Char) : Prop := ':' :: name <:+ text ∧ text.count ':' = 1

instance (name text : List Char) : Decidable (EndsIn name text) := inferInstanceAs (Decidable (_ ∧ _))

/-- The text before the ending, as it is cut out. -/
def blockchainOf (name text : List Char) : String := String.ofList (removeAll ':' name (trim text))

def txName : List Char := "tx".toList

def addressName : List Char := "address".toList

/-- What is left of `from_str` for the kinds of a blockchain. -/
def fromBlockchain (text : List Char) : Except Error Nip73Kind :=
  if EndsIn txName text then .ok (blockchainTransaction (blockchainOf txName text))
  else if EndsIn addressName text then .ok (blockchainAddress (blockchainOf addressName text))
  else .error ⟨.invalid, "invalid NIP-73 kind"⟩

def fromStr (text : String) : Except Error Nip73Kind :=
  match text with
  | "web" => .ok url
  | "isbn" => .ok book
  | "geo" => .ok geohash
  | "isan" => .ok movie
  | "doi" => .ok paper
  | "#" => .ok hashtag
  | "podcast:guid" => .ok podcastFeed
  | "podcast:item:guid" => .ok podcastEpisode
  | "podcast:publisher:guid" => .ok podcastPublisher
  | other => fromBlockchain other.toList

/-! ## Blockchains -/

theorem fromStr_of_last {text : String} {last : Char} (ends : text.toList.getLast? = some last)
    (apart : last ∉ "bnoi#d".toList) : fromStr text = fromBlockchain text.toList := by
  unfold fromStr
  split
  case h_10 => rfl
  all_goals
    cases ends
    exact absurd (by decide) apart

theorem trim_append {name : List Char} (blank : name.getLast?.any Parser.isWhitespace = false) (before : List Char) :
    trim (before ++ ':' :: name) = before.dropWhile Parser.isWhitespace ++ ':' :: name := by
  have colon : Parser.isWhitespace ':' = false := by decide
  have front : (before ++ ':' :: name).dropWhile Parser.isWhitespace =
      before.dropWhile Parser.isWhitespace ++ ':' :: name := by
    rw [List.dropWhile_append, List.dropWhile_cons_of_neg (by simp [colon])]
    split
    next empty => rw [List.isEmpty_iff.mp empty, List.nil_append]
    next => rfl
  have back : ∀ kept : List Char, (kept ++ ':' :: name).reverse.dropWhile Parser.isWhitespace =
      (kept ++ ':' :: name).reverse := by
    intro kept
    rw [List.dropWhile_eq_self_iff]
    intro some_
    rw [List.getElem_zero, List.head_reverse]
    rcases List.eq_nil_or_concat name with rfl | ⟨front, last, rfl⟩
    · simp [colon]
    · simpa using blank
  rw [trim, front, back, List.reverse_reverse]

theorem endsIn_append {name : List Char} (plain : ':' ∉ name) (before : List Char) :
    EndsIn name (before ++ ':' :: name) ↔ ':' ∉ before := by
  rw [EndsIn, List.count_append, List.count_cons_self, List.count_eq_zero.mpr plain, ← List.count_eq_zero (a := ':')]
  constructor
  · intro ends
    omega
  · intro single
    exact ⟨List.suffix_append _ _, by omega⟩

/-- The name of a blockchain comes back: it has no colon and does not begin with a blank. -/
def BlockchainComesBack (blockchain : String) : Prop :=
  ':' ∉ blockchain.toList ∧ blockchain.toList.head?.any Parser.isWhitespace = false

instance (blockchain : String) : Decidable (BlockchainComesBack blockchain) := inferInstanceAs (Decidable (_ ∧ _))

theorem dropWhile_eq_self_iff {text : List Char} : text.dropWhile Parser.isWhitespace = text ↔
    text.head?.any Parser.isWhitespace = false := by
  cases text with
  | nil => simp
  | cons first rest => simp [List.dropWhile_eq_self_iff]

/-- A name without a colon comes back without the blanks in front of it. -/
theorem blockchainOf_append {name : List Char} (blank : name.getLast?.any Parser.isWhitespace = false)
    {blockchain : String} (plain : ':' ∉ blockchain.toList) :
    blockchainOf name (blockchain.toList ++ ':' :: name) = blockchain ↔
      blockchain.toList.head?.any Parser.isWhitespace = false := by
  have plain' : ':' ∉ blockchain.toList.dropWhile Parser.isWhitespace := fun member =>
    plain ((List.dropWhile_sublist _).subset member)
  rw [blockchainOf, trim_append blank, removeAll_append plain', ← dropWhile_eq_self_iff, ← String.toList_inj,
    String.toList_ofList]

/-! ## Kinds that come back -/

/-- When a kind is read back from its text. -/
def ComesBack : Nip73Kind → Prop
  | blockchainTransaction blockchain | blockchainAddress blockchain => BlockchainComesBack blockchain
  | _ => True

theorem not_address_of_transaction {text : List Char} (transaction : ':' :: txName <:+ text) :
    ¬ ':' :: addressName <:+ text := by
  intro address
  rcases List.suffix_or_suffix_of_suffix transaction address with short | long
  · exact absurd short (by decide)
  · exact absurd long (by decide)

theorem fromStr_transaction (blockchain : String) :
    fromStr (blockchainTransaction blockchain).display = .ok (blockchainTransaction blockchain) ↔
      BlockchainComesBack blockchain := by
  have text : (blockchain ++ ":tx").toList = blockchain.toList ++ ':' :: txName := String.toList_append
  have last : (blockchain ++ ":tx").toList.getLast? = some 'x' := by
    rw [text, List.getLast?_append]
    rfl
  rw [display, fromStr_of_last last (by decide), fromBlockchain, text, BlockchainComesBack]
  have other : ¬ EndsIn addressName (blockchain.toList ++ ':' :: txName) := fun ends =>
    not_address_of_transaction (List.suffix_append _ _) ends.1
  by_cases plain : ':' ∈ blockchain.toList
  · rw [if_neg (fun ends => (endsIn_append (by decide) _).mp ends plain), if_neg other]
    simp [plain]
  · rw [if_pos ((endsIn_append (by decide) _).mpr plain), ← @blockchainOf_append txName (by decide) _ plain]
    simp [plain]

theorem fromStr_address (blockchain : String) :
    fromStr (blockchainAddress blockchain).display = .ok (blockchainAddress blockchain) ↔
      BlockchainComesBack blockchain := by
  have text : (blockchain ++ ":address").toList = blockchain.toList ++ ':' :: addressName := String.toList_append
  have last : (blockchain ++ ":address").toList.getLast? = some 's' := by
    rw [text, List.getLast?_append]
    rfl
  rw [display, fromStr_of_last last (by decide), fromBlockchain, text, BlockchainComesBack]
  have other : ¬ EndsIn txName (blockchain.toList ++ ':' :: addressName) := fun ends =>
    not_address_of_transaction ends.1 (List.suffix_append _ _)
  rw [if_neg other]
  by_cases plain : ':' ∈ blockchain.toList
  · rw [if_neg (fun ends => (endsIn_append (by decide) _).mp ends plain)]
    simp [plain]
  · rw [if_pos ((endsIn_append (by decide) _).mpr plain), ← @blockchainOf_append addressName (by decide) _ plain]
    simp [plain]

theorem fromStr_display_iff (kind : Nip73Kind) : fromStr kind.display = .ok kind ↔ kind.ComesBack := by
  cases kind with
  | blockchainTransaction blockchain => exact fromStr_transaction blockchain
  | blockchainAddress blockchain => exact fromStr_address blockchain
  | _ => exact iff_of_true rfl trivial

/-- No kind is taken for a number. -/
theorem parseUnsigned_display (bound : Nat) (kind : Nip73Kind) : parseUnsigned bound kind.display.toList = none := by
  cases kind with
  | blockchainTransaction blockchain =>
      exact @parseUnsigned_of_letter bound _ 'x' (by simp [display]) (by decide) (by decide)
  | blockchainAddress blockchain =>
      exact @parseUnsigned_of_letter bound _ 's' (by simp [display]) (by decide) (by decide)
  | _ => rfl

end Nip73Kind

end RustNostr
