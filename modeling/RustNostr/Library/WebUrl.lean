import Mathlib
import RustNostr.Library.UrlPath

/-!
# URLs of the web

What the parser of the URL standard makes of the text behind the scheme of the web: the
authority, the path, the query and the fragment.
-/

set_option autoImplicit false

namespace RustNostr.Library

/-! ## Encoding -/

/-- The query percent-encode set of special schemes -/
def specialQueryEncoded (char : Char) : Bool := queryEncoded char || char = '\''

def fragmentEncoded (char : Char) : Bool :=
  char.toNat ≤ 32 || 126 < char.toNat || char = '"' || char = '<' || char = '>' || char = '`'

theorem specialQuerySet : QuerySet specialQueryEncoded where
  digit char digit := by
    have other : char ≠ '\'' := fun same => by
      subst same
      cases digit
    rw [specialQueryEncoded, querySet.digit char digit, decide_eq_false other]
    rfl
  percent := rfl
  plus := rfl
  ampersand := rfl
  equals := rfl

/-! ## Reading -/

/-- What begins a query or a fragment -/
def isMark (char : Char) : Bool := char = '?' || char = '#'

/-- The path state, when a special scheme has led to it. -/
def readWebPath (scheme : String) (text : List Char) : List (List Char) :=
  match text with
  | [] => [[]]
  | _ :: path => runPath scheme [] (pathSegments scheme path)

/-- The query of the text that begins with its mark, or with the mark of the fragment. -/
def readQuery (text : List Char) : Option String :=
  match text with
  | '?' :: query => some (String.ofList (percentEncodeSet specialQueryEncoded (query.takeWhile (· ≠ '#'))))
  | _ => none

def readFragment (text : List Char) : Option String :=
  match text.dropWhile (· ≠ '#') with
  | _ :: fragment => some (String.ofList (percentEncodeSet fragmentEncoded fragment))
  | [] => none

/-- The text behind the scheme and the two slashes, with a parser for credentials, hosts and ports.
The scheme is special, and not that of files. -/
def readWeb (authority : List Char → Option String) (scheme : String) (text : List Char) : Option UrlRecord :=
  let text := behindSlashes (trimEnd text)
  let behind := text.dropWhile fun char => !endsAuthority char
  let marked := behind.dropWhile fun char => !isMark char
  (authority (text.takeWhile fun char => !endsAuthority char)).map fun host => {
    scheme := scheme
    authority := some host
    path := .segments (readWebPath scheme (behind.takeWhile fun char => !isMark char))
    query := readQuery marked
    fragment := readFragment marked }

/-- `Url::query_pairs` -/
def UrlRecord.queryPairs (url : UrlRecord) : List (List Char × List Char) :=
  (Library.queryPairs (url.query.getD "").toList).map fun pair => (formDecode pair.1, formDecode pair.2)

theorem UrlRecord.queryPairs_eq {url : UrlRecord} {text : List Char}
    (query : url.query = some (String.ofList (percentEncodeSet specialQueryEncoded text))) :
    url.queryPairs = (Library.queryPairs text).map fun pair => (formDecode pair.1, formDecode pair.2) := by
  rw [queryPairs, query, Option.getD_some, String.toList_ofList, specialQuerySet.queryPairs, List.map_map]
  simp only [Function.comp_def, specialQuerySet.formDecode]

/-! ## Plain hosts -/

/-- The whole text is the authority, wherever it stands. -/
def WholeAuthority (host : List Char) : Prop :=
  host ≠ [] ∧ ∀ char ∈ host, endsAuthority char = false ∧ isTabOrNewline char = false

/-- Decided on the list: the characters are too many to try. -/
theorem eq_false_of_all {p : Char → Bool} {text : List Char} (all : (text.all fun char => !p char) = true) :
    ∀ char ∈ text, p char = false := by
  simpa using all

theorem takeWhile_append_cons {p : Char → Bool} {front : List Char} {stop : Char}
    (all : ∀ char ∈ front, p char = true) (ends : p stop = false) (rest : List Char) :
    (front ++ stop :: rest).takeWhile p = front := by
  rw [List.takeWhile_append_of_pos all, List.takeWhile_cons_of_neg (by simp [ends]), List.append_nil]

theorem dropWhile_append_cons {p : Char → Bool} {front : List Char} {stop : Char}
    (all : ∀ char ∈ front, p char = true) (ends : p stop = false) (rest : List Char) :
    (front ++ stop :: rest).dropWhile p = stop :: rest := by
  rw [List.dropWhile_append_of_pos all, List.dropWhile_cons_of_neg (by simp [ends])]

namespace WholeAuthority

variable {host : List Char} (whole : WholeAuthority host)

include whole

theorem goesOn : ∀ char ∈ host, (!endsAuthority char) = true := by
  intro char member
  rw [(whole.2 char member).1]
  rfl

theorem behindSlashes_append (rest : List Char) :
    behindSlashes (host ++ '/' :: rest) = host ++ '/' :: removeBreaks rest := by
  obtain ⟨some_, plain⟩ := whole
  have kept : removeBreaks host = host := removeBreaks_of_plain fun char member => (plain char member).2
  rw [behindSlashes, removeBreaks_append_cons (by decide), kept]
  cases host with
  | nil => exact absurd rfl some_
  | cons first host =>
      have ends := (plain first List.mem_cons_self).1
      have other : isSlash first = false := by
        rw [endsAuthority, Bool.or_assoc, Bool.or_eq_false_iff] at ends
        exact ends.1
      rw [List.cons_append, List.dropWhile_cons_of_neg (by simp [other])]

end WholeAuthority

theorem readFragment_eq_none (text : List Char) : readFragment text = none ↔ '#' ∉ text := by
  rw [readFragment]
  cases found : text.dropWhile (· ≠ '#') with
  | nil =>
      rw [List.dropWhile_eq_nil_iff] at found
      refine iff_of_true rfl fun member => ?_
      exact of_decide_eq_true (found '#' member) rfl
  | cons mark rest =>
      refine iff_of_false nofun fun absent => ?_
      have all : text.dropWhile (· ≠ '#') = [] := List.dropWhile_eq_nil_iff.mpr fun char member =>
        decide_eq_true fun same => absent (same ▸ member)
      rw [all] at found
      cases found

theorem mem_removeBreaks_trimEnd {char : Char} (kept : isC0ControlOrSpace char = false)
    (unbroken : isTabOrNewline char = false) (text : List Char) :
    char ∈ removeBreaks (trimEnd text) ↔ char ∈ text := by
  refine ⟨fun member => (trimEnd_sublist text).subset (List.mem_of_mem_filter member), fun member => ?_⟩
  obtain ⟨before, after, shape⟩ := List.append_of_mem member
  rw [shape, trimEnd_append_cons kept, removeBreaks_append_cons unbroken]
  exact List.mem_append_right _ List.mem_cons_self

/-- What is read of a host, a path and a query that were put together. -/
theorem readWeb_append {authority : List Char → Option String} {scheme : String} {host path : List Char}
    (whole : WholeAuthority host) (plain : ∀ char ∈ path, pathEncoded char = false) (query : List Char) :
    readWeb authority scheme (host ++ '/' :: (path ++ '?' :: query)) = (authority host).map fun found => {
      scheme := scheme
      authority := some found
      path := .segments (runPath scheme [] (pathSegments scheme path))
      query := some (String.ofList (percentEncodeSet specialQueryEncoded (queryText query)))
      fragment := readFragment ('?' :: removeBreaks (trimEnd query)) } := by
  have encoded : ∀ char ∈ path, queryEncoded char = false ∧ char ≠ '?' := by
    intro char member
    have written := plain char member
    simp only [pathEncoded, Bool.or_eq_false_iff, decide_eq_false_iff_not] at written
    exact ⟨written.1.1.1.1.1, written.1.1.1.1.2⟩
  have kept := Kept.of_plain fun char member => (encoded char member).1
  have unbroken : removeBreaks path = path := removeBreaks_of_plain kept.2.1
  have unmarked : ∀ char ∈ '/' :: path, (!isMark char) = true := by
    intro char member
    rcases List.mem_cons.mp member with slash | inside
    · rw [slash]
      rfl
    · have fragment : char ≠ '#' := fun same => kept.2.2 (same ▸ inside)
      simp [isMark, fragment, (encoded char inside).2]
  have text : behindSlashes (trimEnd (host ++ '/' :: (path ++ '?' :: query))) =
      host ++ '/' :: (path ++ '?' :: removeBreaks (trimEnd query)) := by
    rw [trimEnd_append_cons (by decide), trimEnd_append_cons (by decide), whole.behindSlashes_append,
      removeBreaks_append_cons (by decide), unbroken]
  have stops : (!isMark '?') = false := rfl
  have front := takeWhile_append_cons unmarked stops (removeBreaks (trimEnd query))
  have back := dropWhile_append_cons unmarked stops (removeBreaks (trimEnd query))
  rw [List.cons_append] at front back
  rw [readWeb, text, takeWhile_append_cons whole.goesOn rfl, dropWhile_append_cons whole.goesOn rfl, front, back]
  rfl

end RustNostr.Library
