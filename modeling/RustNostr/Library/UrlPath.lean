import Mathlib
import RustNostr.Library.UrlQuery

/-!
# Paths of URLs

The records that the URL standard has for URLs, its path state, and the texts that are
written into a path as they stand.
-/

set_option autoImplicit false

namespace RustNostr.Library

/-! ## Records -/

inductive UrlPath where
  | segments (list : List (List Char))
  | cannotBeABase (text : List Char) (noSlash : text.head? ≠ some '/')
  deriving DecidableEq

namespace UrlPath

def isBase : UrlPath → Bool
  | segments _ => true
  | cannotBeABase _ _ => false

def text : UrlPath → List Char
  | segments list => list.flatMap ('/' :: ·)
  | cannotBeABase text _ => text

end UrlPath

/-- The authority has the credentials, the host and the port. -/
structure UrlRecord where
  scheme : String
  authority : Option String
  path : UrlPath
  query : Option String
  fragment : Option String
  deriving DecidableEq

def UrlRecord.origin (url : UrlRecord) : String × Option String := (url.scheme, url.authority)

def specialSchemes : List String := ["ftp", "file", "http", "https", "ws", "wss"]

/-! ## Segments -/

/-- A backslash is a slash in URLs with a special scheme. -/
def isPathSeparator (scheme : String) (char : Char) : Bool :=
  char = '/' || (specialSchemes.contains scheme && char = '\\')

/-- The path percent-encode set -/
def pathEncoded (char : Char) : Bool :=
  queryEncoded char || char = '?' || char = '^' || char = '`' || char.toNat = 123 || char.toNat = 125

def percentEncodePath (text : List Char) : List Char :=
  text.flatMap fun char =>
    if pathEncoded char then (String.utf8EncodeChar char).flatMap percentEncode else [char]

def removeBreaks (text : List Char) : List Char := text.filter fun char => !isTabOrNewline char

theorem removeBreaks_of_plain {text : List Char} (plain : ∀ char ∈ text, isTabOrNewline char = false) :
    removeBreaks text = text := by
  refine List.filter_eq_self.mpr fun char member => ?_
  rw [plain char member]
  rfl

def pathSegments (scheme : String) (text : List Char) : List (List Char) :=
  (text.splitOnP (isPathSeparator scheme)).map percentEncodePath

def singleDots : List (List Char) := [['.'], ['%', '2', 'e'], ['%', '2', 'E']]

def doubleDots : List (List Char) := singleDots.flatMap fun first => singleDots.map (first ++ ·)

def isWindowsDriveLetter (segment : List Char) : Bool :=
  match segment with
  | [letter, mark] => letter.isAlpha && (mark = ':' || mark = '|')
  | _ => false

/-- A drive letter at the beginning of the path of a file is written with a colon. -/
def pathSegment (scheme : String) (path : List (List Char)) (segment : List Char) : List Char :=
  if scheme = "file" ∧ path = [] ∧ isWindowsDriveLetter segment then segment.take 1 ++ [':'] else segment

/-- A drive letter stays. -/
def shortenPath (scheme : String) (path : List (List Char)) : List (List Char) :=
  if scheme = "file" ∧ path.length = 1 ∧ isWindowsDriveLetter (path.headD []) ∧
      (path.headD []).getLast? = some ':'
  then path else path.dropLast

/-- A segment that others follow -/
def stepPath (scheme : String) (path : List (List Char)) (segment : List Char) : List (List Char) :=
  if segment ∈ doubleDots then shortenPath scheme path
  else if segment ∈ singleDots then path
  else path ++ [pathSegment scheme path segment]

def finishPath (scheme : String) (path : List (List Char)) (segment : List Char) : List (List Char) :=
  if segment ∈ doubleDots then shortenPath scheme path ++ [[]]
  else if segment ∈ singleDots then path ++ [[]]
  else path ++ [pathSegment scheme path segment]

/-- The path state, from a path that is there. -/
def runPath (scheme : String) : List (List Char) → List (List Char) → List (List Char)
  | path, [] => path
  | path, [last] => finishPath scheme path last
  | path, segment :: next :: rest => runPath scheme (stepPath scheme path segment) (next :: rest)

def readPath (scheme : String) (text : List Char) : List (List Char) :=
  runPath scheme [] (pathSegments scheme (removeBreaks text))

/-! ## Plain texts -/

/-- A text that is written into a path as it stands: nothing is encoded, and no segment has a
meaning of its own. -/
structure PlainPath (scheme : String) (text : List Char) : Prop where
  written : ∀ char ∈ text, pathEncoded char = false
  noBackslash : scheme ∈ specialSchemes → '\\' ∉ text
  noDots : ∀ segment ∈ text.splitOn '/', segment ∉ singleDots ∧ segment ∉ doubleDots

/-! ### What is written into a path -/

/-- What stands between two slashes of a path that was read. -/
structure ProperSegment (scheme : String) (segment : List Char) : Prop where
  written : ∀ char ∈ segment, pathEncoded char = false
  whole : ∀ char ∈ segment, isPathSeparator scheme char = false
  noDots : segment ∉ singleDots ∧ segment ∉ doubleDots

theorem ProperSegment.nil (scheme : String) : ProperSegment scheme [] where
  written _ member := by cases member
  whole _ member := by cases member
  noDots := by decide

theorem proper_nil (scheme : String) : ∀ segment ∈ ([] : List (List Char)), ProperSegment scheme segment := by
  intro segment absent
  cases absent

theorem pathEncoded_percentEncode {byte : UInt8} {char : Char} (member : char ∈ percentEncode byte) :
    pathEncoded char = false ∧ char ≠ '/' ∧ char ≠ '\\' :=
  @of_mem_percentEncode (fun char => pathEncoded char = false ∧ char ≠ '/' ∧ char ≠ '\\') (by decide) (by decide)
    _ _ member

theorem isPathSeparator_of_ne {scheme : String} {char : Char} (slash : char ≠ '/')
    (backslash : scheme ∈ specialSchemes → char ≠ '\\') : isPathSeparator scheme char = false := by
  by_cases special : scheme ∈ specialSchemes
  · simp [isPathSeparator, slash, backslash special]
  · simp [isPathSeparator, slash, special]

theorem mem_splitOnP {p : Char → Bool} {text piece : List Char} (member : piece ∈ text.splitOnP p) :
    ∀ char ∈ piece, char ∈ text ∧ p char = false := by
  induction text generalizing piece with
  | nil =>
      rw [List.splitOnP_nil, List.mem_singleton] at member
      subst member
      intro char absent
      cases absent
  | cons first text ih =>
      rw [List.splitOnP_cons_eq_if_modifyHead] at member
      split at member
      next =>
        rcases List.mem_cons.mp member with here | later
        · subst here
          intro char absent
          cases absent
        · intro char present
          exact (ih later char present).imp_left (List.mem_cons_of_mem first)
      next other =>
        cases pieces : text.splitOnP p with
        | nil => exact absurd pieces (List.splitOnP_ne_nil p text)
        | cons head tail =>
            rw [pieces, List.modifyHead_cons] at member
            rcases List.mem_cons.mp member with here | later
            · intro char present
              rw [here] at present
              rcases List.mem_cons.mp present with same | inside
              · exact ⟨same ▸ List.mem_cons_self, same ▸ eq_false_of_ne_true other⟩
              · exact (ih (pieces ▸ List.mem_cons_self) char inside).imp_left (List.mem_cons_of_mem first)
            · intro char present
              exact (ih (pieces ▸ List.mem_cons_of_mem head later) char present).imp_left
                (List.mem_cons_of_mem first)

/-- A segment before its dots are looked at. -/
theorem mem_pathSegments {scheme : String} {text segment : List Char}
    (member : segment ∈ pathSegments scheme text) :
    ∀ char ∈ segment, pathEncoded char = false ∧ isPathSeparator scheme char = false := by
  obtain ⟨piece, split, same⟩ := List.mem_map.mp member
  subst same
  intro char present
  obtain ⟨source, inside, written⟩ := List.mem_flatMap.mp present
  by_cases encoded : pathEncoded source = true
  · rw [if_pos encoded] at written
    obtain ⟨byte, _, digit⟩ := List.mem_flatMap.mp written
    obtain ⟨kept, slash, backslash⟩ := pathEncoded_percentEncode digit
    exact ⟨kept, isPathSeparator_of_ne slash fun _ => backslash⟩
  · rw [if_neg encoded, List.mem_singleton] at written
    subst written
    exact ⟨eq_false_of_ne_true encoded, (mem_splitOnP split char inside).2⟩

theorem ProperSegment.pathSegment {scheme : String} {segment : List Char} (proper : ProperSegment scheme segment)
    (path : List (List Char)) : ProperSegment scheme (pathSegment scheme path segment) := by
  unfold Library.pathSegment
  split
  next quirk =>
    obtain ⟨_, _, drive⟩ := quirk
    unfold isWindowsDriveLetter at drive
    split at drive
    next letter mark =>
      refine ⟨fun char member => ?_, fun char member => ?_, by simp [singleDots, doubleDots]⟩
      · rcases List.mem_cons.mp member with here | colon
        · exact here ▸ proper.written letter List.mem_cons_self
        · cases List.mem_singleton.mp colon
          decide
      · rcases List.mem_cons.mp member with here | colon
        · exact here ▸ proper.whole letter List.mem_cons_self
        · cases List.mem_singleton.mp colon
          exact isPathSeparator_of_ne (by decide) fun _ => by decide
    next => cases drive
  next => exact proper

theorem mem_shortenPath {scheme : String} {path : List (List Char)} {segment : List Char}
    (member : segment ∈ shortenPath scheme path) : segment ∈ path := by
  unfold shortenPath at member
  split at member
  next => exact member
  next => exact List.mem_of_mem_dropLast member

section Proper

variable {scheme : String} {path : List (List Char)} {segment : List Char}
    (proper : ∀ segment ∈ path, ProperSegment scheme segment)
    (plain : ∀ char ∈ segment, pathEncoded char = false ∧ isPathSeparator scheme char = false)

include proper plain

theorem proper_append (noSingle : segment ∉ singleDots) (noDouble : segment ∉ doubleDots) :
    ∀ other ∈ path ++ [pathSegment scheme path segment], ProperSegment scheme other := by
  have itself : ProperSegment scheme segment :=
    ⟨fun char member => (plain char member).1, fun char member => (plain char member).2, noSingle, noDouble⟩
  intro other member
  rcases List.mem_append.mp member with earlier | last
  · exact proper other earlier
  · cases List.mem_singleton.mp last
    exact itself.pathSegment path

theorem proper_stepPath : ∀ other ∈ stepPath scheme path segment, ProperSegment scheme other := by
  unfold stepPath
  split
  next => exact fun other member => proper other (mem_shortenPath member)
  next noDouble =>
    split
    next => exact proper
    next noSingle => exact proper_append proper plain noSingle noDouble

theorem proper_finishPath : ∀ other ∈ finishPath scheme path segment, ProperSegment scheme other := by
  have withEmpty {kept : List (List Char)} (each : ∀ other ∈ kept, ProperSegment scheme other) :
      ∀ other ∈ kept ++ [[]], ProperSegment scheme other := by
    intro other member
    rcases List.mem_append.mp member with earlier | last
    · exact each other earlier
    · cases List.mem_singleton.mp last
      exact .nil scheme
  unfold finishPath
  split
  next => exact withEmpty fun other member => proper other (mem_shortenPath member)
  next noDouble =>
    split
    next => exact withEmpty proper
    next noSingle => exact proper_append proper plain noSingle noDouble

end Proper

theorem proper_runPath {scheme : String} {path segments : List (List Char)}
    (proper : ∀ segment ∈ path, ProperSegment scheme segment)
    (plain : ∀ segment ∈ segments, ∀ char ∈ segment,
      pathEncoded char = false ∧ isPathSeparator scheme char = false) :
    ∀ other ∈ runPath scheme path segments, ProperSegment scheme other := by
  induction path, segments using runPath.induct scheme with
  | case1 path => exact proper
  | case2 path last => exact proper_finishPath proper (plain last List.mem_cons_self)
  | case3 path segment next rest ih =>
      rw [runPath]
      exact ih (proper_stepPath proper (plain segment List.mem_cons_self))
        fun other later => plain other (List.mem_cons_of_mem segment later)

theorem length_shortenPath_le (scheme : String) (path : List (List Char)) :
    (shortenPath scheme path).length ≤ path.length := by
  unfold shortenPath
  split
  next => exact Nat.le_refl _
  next => exact path.dropLast_sublist.length_le

theorem length_runPath_le (scheme : String) (path segments : List (List Char)) :
    (runPath scheme path segments).length ≤ path.length + segments.length := by
  induction path, segments using runPath.induct scheme with
  | case1 path => exact Nat.le_refl _
  | case2 path last =>
      have shorter := length_shortenPath_le scheme path
      rw [runPath, finishPath]
      split_ifs <;> simp only [List.length_append, List.length_singleton] <;> omega
  | case3 path segment next rest ih =>
      have shorter := length_shortenPath_le scheme path
      have step : (stepPath scheme path segment).length ≤ path.length + 1 := by
        rw [stepPath]
        split_ifs
        · omega
        · omega
        · rw [List.length_append, List.length_singleton]
      rw [runPath]
      simp only [List.length_cons] at ih ⊢
      omega

/-! ### Paths that are the text they were read from -/

theorem text_segments_cons (first : List Char) (rest : List (List Char)) :
    (UrlPath.segments (first :: rest)).text = '/' :: ['/'].intercalate (first :: rest) := by
  induction rest generalizing first with
  | nil => simp [UrlPath.text]
  | cons second rest ih =>
      have tail := ih second
      simp only [UrlPath.text, List.flatMap_cons] at tail ⊢
      rw [tail, List.intercalate_cons_cons]
      simp

section Text

variable {scheme : String} {name : List Char} {path : List (List Char)}

theorem splitOn_of_text (proper : ∀ segment ∈ path, ProperSegment scheme segment)
    (text : (UrlPath.segments path).text = '/' :: name) : name.splitOn '/' = path := by
  cases path with
  | nil => cases text
  | cons first rest =>
      rw [text_segments_cons, List.cons.injEq] at text
      rw [← text.2]
      refine List.splitOn_intercalate '/' (fun segment member slash => ?_) (List.cons_ne_nil first rest)
      have whole := (proper segment member).whole '/' slash
      simp [isPathSeparator] at whole

theorem PlainPath.of_text (proper : ∀ segment ∈ path, ProperSegment scheme segment)
    (text : (UrlPath.segments path).text = '/' :: name) : PlainPath scheme name := by
  have chars : ∀ char ∈ name, char = '/' ∨ ∃ segment ∈ path, char ∈ segment := by
    intro char member
    have inside : char ∈ (UrlPath.segments path).text := text ▸ List.mem_cons_of_mem '/' member
    obtain ⟨segment, present, written⟩ := List.mem_flatMap.mp inside
    rcases List.mem_cons.mp written with slash | within
    · exact .inl slash
    · exact .inr ⟨segment, present, within⟩
  refine ⟨fun char member => ?_, fun special backslash => ?_, fun segment member => ?_⟩
  · rcases chars char member with slash | ⟨segment, present, within⟩
    · subst slash
      decide
    · exact (proper segment present).written char within
  · rcases chars '\\' backslash with slash | ⟨segment, present, within⟩
    · cases slash
    · have whole := (proper segment present).whole _ within
      simp [isPathSeparator, special] at whole
  · rw [splitOn_of_text proper text] at member
    exact (proper segment member).noDots

variable (plain : PlainPath scheme name)

include plain

theorem PlainPath.queryEncoded : ∀ char ∈ name, queryEncoded char = false := by
  intro char member
  have written := plain.written char member
  simp only [pathEncoded, Bool.or_eq_false_iff] at written
  exact written.1.1.1.1.1

theorem PlainPath.removeBreaks : removeBreaks name = name :=
  removeBreaks_of_plain (Kept.of_plain plain.queryEncoded).2.1

theorem PlainPath.trimEnd : trimEnd name = name := (Kept.of_plain plain.queryEncoded).1

theorem PlainPath.pathSegments : pathSegments scheme name = name.splitOn '/' := by
  have separators : name.splitOnP (isPathSeparator scheme) = name.splitOn '/' := by
    have each : ∀ char ∈ name, isPathSeparator scheme char = (char == '/') := by
      intro char member
      by_cases slash : char = '/'
      · simp [isPathSeparator, slash]
      · rw [isPathSeparator_of_ne slash fun special same => plain.noBackslash special (same ▸ member)]
        simp [slash]
    rw [List.splitOn_eq_splitOnP]
    clear plain
    induction name with
    | nil => rfl
    | cons first name ih =>
        rw [List.splitOnP_cons_eq_if_modifyHead, List.splitOnP_cons_eq_if_modifyHead,
          each first List.mem_cons_self, ih fun char later => each char (List.mem_cons_of_mem first later)]
  have unencoded : ∀ segment ∈ name.splitOn '/', percentEncodePath segment = segment := by
    intro segment member
    rw [List.splitOn_eq_splitOnP] at member
    have each : ∀ char ∈ segment, pathEncoded char = false := fun char present =>
      plain.written char (mem_splitOnP member char present).1
    rw [percentEncodePath, List.flatMap_congr fun char present => if_neg (by simp [each char present])]
    exact List.flatMap_singleton' segment
  rw [Library.pathSegments, separators, List.map_congr_left unencoded, List.map_id']

end Text

theorem pathSegment_of_noDrive {scheme : String} {path : List (List Char)} {segment : List Char}
    (noDrive : path = [] → isWindowsDriveLetter segment = false) : pathSegment scheme path segment = segment := by
  refine if_neg fun quirk => ?_
  have drive := noDrive quirk.2.1
  rw [quirk.2.2] at drive
  cases drive

theorem runPath_plain {scheme : String} {path segments : List (List Char)} (some_ : segments ≠ [])
    (noDots : ∀ segment ∈ segments, segment ∉ singleDots ∧ segment ∉ doubleDots)
    (noDrive : ∀ first, segments.head? = some first → path = [] → isWindowsDriveLetter first = false) :
    runPath scheme path segments = path ++ segments := by
  induction path, segments using runPath.induct scheme with
  | case1 path => exact absurd rfl some_
  | case2 path last =>
      have dots := noDots last List.mem_cons_self
      rw [runPath, finishPath, if_neg dots.2, if_neg dots.1, pathSegment_of_noDrive (noDrive last rfl)]
  | case3 path segment next rest ih =>
      have dots := noDots segment List.mem_cons_self
      have step : stepPath scheme path segment = path ++ [segment] := by
        rw [stepPath, if_neg dots.2, if_neg dots.1, pathSegment_of_noDrive (noDrive segment rfl)]
      rw [step] at ih
      have later := ih (List.cons_ne_nil next rest)
        (fun other later => noDots other (List.mem_cons_of_mem segment later))
        (fun first _ empty => absurd empty (by simp))
      rw [runPath, step, later, List.append_assoc]
      rfl

/-- A text whose first segment is no drive letter: at least three letters or digits stand at its
beginning. -/
def Led (name : List Char) : Prop :=
  ∃ lead rest, name = lead ++ rest ∧ 2 < lead.length ∧ ∀ char ∈ lead, char.isAlphanum = true

theorem Led.noDrive {name : List Char} (led : Led name) {first : List Char}
    (head : (name.splitOn '/').head? = some first) : isWindowsDriveLetter first = false := by
  obtain ⟨lead, rest, shape, long, letters⟩ := led
  have whole : '/' ∉ lead := fun slash => absurd (letters '/' slash) (by decide)
  rw [shape, splitOn_append_of_notMem whole] at head
  cases pieces : rest.splitOn '/' with
  | nil => exact absurd pieces (List.splitOn_ne_nil '/' rest)
  | cons piece others =>
      rw [pieces] at head
      cases head
      unfold isWindowsDriveLetter
      split
      next letter mark two =>
        have lengths := congrArg List.length two
        simp only [List.length_append, List.length_cons, List.length_nil] at lengths
        omega
      next => rfl

/-- A path that is there and a text behind it give the text alone exactly when the path is empty
and the text is plain. -/
theorem runPath_text_iff {scheme : String} {name clean : List Char} {path : List (List Char)} (led : Led name)
    (proper : ∀ segment ∈ path, ProperSegment scheme segment) (cleaned : PlainPath scheme name → clean = name) :
    (UrlPath.segments (runPath scheme path (pathSegments scheme clean))).text = '/' :: name ↔
      path = [] ∧ PlainPath scheme name := by
  have run (plain : PlainPath scheme name) :
      runPath scheme path (pathSegments scheme clean) = path ++ name.splitOn '/' := by
    rw [cleaned plain, plain.pathSegments]
    exact runPath_plain (List.splitOn_ne_nil '/' name) plain.noDots fun first head _ => led.noDrive head
  have properRun := proper_runPath proper fun _ member => @mem_pathSegments scheme clean _ member
  constructor
  · intro text
    have plain := PlainPath.of_text properRun text
    have split := splitOn_of_text properRun text
    rw [run plain] at split
    exact ⟨List.self_eq_append_left.mp split, plain⟩
  · intro found
    obtain ⟨empty, plain⟩ := found
    rw [run plain, empty, List.nil_append]
    cases pieces : name.splitOn '/' with
    | nil => exact absurd pieces (List.splitOn_ne_nil '/' name)
    | cons first rest => rw [text_segments_cons, ← pieces, List.intercalate_splitOn]

theorem readPath_text_iff {scheme : String} {name : List Char} (led : Led name) :
    (UrlPath.segments (readPath scheme name)).text = '/' :: name ↔ PlainPath scheme name := by
  rw [readPath, runPath_text_iff led (proper_nil scheme) PlainPath.removeBreaks]
  exact and_iff_right rfl

theorem readPath_plain {scheme : String} {name : List Char} (led : Led name) (plain : PlainPath scheme name) :
    readPath scheme name = name.splitOn '/' := by
  rw [readPath, plain.removeBreaks, plain.pathSegments]
  exact runPath_plain (List.splitOn_ne_nil '/' name) plain.noDots fun first head _ => led.noDrive head

/-! ## After the scheme of the web -/

def isSlash (char : Char) : Bool := char = '/' || char = '\\'

/-- What ends the authority -/
def endsAuthority (char : Char) : Bool := isSlash char || char = '?' || char = '#'

/-- The text behind the slashes that follow the scheme: however many they are. -/
def behindSlashes (text : List Char) : List Char := (removeBreaks text).dropWhile isSlash

def authorityText (text : List Char) : List Char := (behindSlashes text).takeWhile fun char => !endsAuthority char

/-- What is read of a text without a query and a fragment. -/
def webPath (scheme : String) (text : List Char) : List (List Char) :=
  match (behindSlashes (trimEnd text)).dropWhile fun char => !isSlash char with
  | [] => [[]]
  | _ :: path => runPath scheme [] (pathSegments scheme path)

/-- The path that a host has behind it, when more follows. -/
def ownPath (scheme : String) (host : List Char) : List (List Char) :=
  match (behindSlashes host).dropWhile fun char => !isSlash char with
  | [] => []
  | _ :: path => (pathSegments scheme path).foldl (stepPath scheme) []

/-- A host, and nothing that stays behind it in the path. -/
structure HostOnly (scheme : String) (host : List Char) : Prop where
  some_ : behindSlashes host ≠ []
  noPath : ownPath scheme host = []

theorem trimEnd_append_cons {separator : Char} (kept : isC0ControlOrSpace separator = false)
    (front back : List Char) : trimEnd (front ++ separator :: back) = front ++ separator :: trimEnd back := by
  simp only [trimEnd, List.reverse_append, List.reverse_cons, List.append_assoc, List.singleton_append]
  rw [List.dropWhile_append]
  split
  next all =>
    rw [List.isEmpty_iff.mp all, List.dropWhile_cons_of_neg (by simp [kept])]
    simp
  next => simp

theorem removeBreaks_append_cons {separator : Char} (kept : isTabOrNewline separator = false)
    (front back : List Char) :
    removeBreaks (front ++ separator :: back) = removeBreaks front ++ separator :: removeBreaks back := by
  rw [removeBreaks, List.filter_append, List.filter_cons_of_pos (by simp [kept])]
  rfl

theorem behindSlashes_append {host : List Char} (some_ : behindSlashes host ≠ []) (back : List Char) :
    behindSlashes (host ++ '/' :: back) = behindSlashes host ++ '/' :: removeBreaks back := by
  rw [behindSlashes, removeBreaks_append_cons (by decide), List.dropWhile_append, if_neg]
  · rfl
  · rwa [List.isEmpty_iff]

theorem behindSlashes_append_of_empty {host : List Char} (empty : behindSlashes host = []) (back : List Char) :
    behindSlashes (host ++ '/' :: back) = behindSlashes back := by
  have dropped : ((removeBreaks host).dropWhile isSlash).isEmpty = true := List.isEmpty_iff.mpr empty
  rw [behindSlashes, removeBreaks_append_cons (by decide), List.dropWhile_append, if_pos dropped,
    List.dropWhile_cons_of_pos (by decide)]
  rfl

/-- The authority ends where the host's slash stands. -/
theorem authorityText_append {host : List Char} (some_ : behindSlashes host ≠ []) (back : List Char) :
    authorityText (host ++ '/' :: back) = authorityText host := by
  rw [authorityText, behindSlashes_append some_, List.takeWhile_append, List.takeWhile_cons_of_neg (by decide),
    List.append_nil]
  split
  next whole => exact ((List.takeWhile_prefix _).eq_of_length whole).symm
  next => rfl

theorem runPath_append (scheme : String) (path front : List (List Char)) {back : List (List Char)}
    (some_ : back ≠ []) :
    runPath scheme path (front ++ back) = runPath scheme (front.foldl (stepPath scheme) path) back := by
  induction front generalizing path with
  | nil => rfl
  | cons segment front ih =>
      rw [List.foldl_cons, ← ih]
      cases tail : front ++ back with
      | nil => exact absurd (List.append_eq_nil_iff.mp tail).2 some_
      | cons next rest => rw [List.cons_append, tail, runPath]

theorem proper_foldl {scheme : String} {path segments : List (List Char)}
    (proper : ∀ segment ∈ path, ProperSegment scheme segment)
    (plain : ∀ segment ∈ segments, ∀ char ∈ segment,
      pathEncoded char = false ∧ isPathSeparator scheme char = false) :
    ∀ other ∈ segments.foldl (stepPath scheme) path, ProperSegment scheme other := by
  induction segments generalizing path with
  | nil => exact proper
  | cons segment segments ih =>
      exact ih (proper_stepPath proper (plain segment List.mem_cons_self))
        fun other later => plain other (List.mem_cons_of_mem segment later)

theorem proper_ownPath (scheme : String) (host : List Char) :
    ∀ segment ∈ ownPath scheme host, ProperSegment scheme segment := by
  unfold ownPath
  split
  next => exact proper_nil scheme
  next => exact proper_foldl (proper_nil scheme) fun _ member => mem_pathSegments member

section Web

variable {scheme : String} {host name : List Char}

theorem pathSegments_append_cons {separator : Char} (separates : isPathSeparator scheme separator = true)
    (front back : List Char) :
    pathSegments scheme (front ++ separator :: back) = pathSegments scheme front ++ pathSegments scheme back := by
  rw [pathSegments, List.splitOnP_append_cons _ _ separates, List.map_append]
  rfl

theorem pathSegments_ne_nil (scheme : String) (text : List Char) : pathSegments scheme text ≠ [] := by
  simp [pathSegments]

/-- The host's own path is there when the rest is read. -/
theorem webPath_append (some_ : behindSlashes host ≠ []) :
    webPath scheme (host ++ '/' :: name) =
      runPath scheme (ownPath scheme host) (pathSegments scheme (removeBreaks (trimEnd name))) := by
  rw [webPath, ownPath, trimEnd_append_cons (by decide), behindSlashes_append some_, List.dropWhile_append]
  cases own : (behindSlashes host).dropWhile fun char => !isSlash char with
  | nil =>
      rw [if_pos (by rfl), List.dropWhile_cons_of_neg (by decide)]
  | cons separator path =>
      have separates : isPathSeparator scheme '/' = true := rfl
      rw [if_neg (by simp), List.cons_append]
      dsimp only
      rw [pathSegments_append_cons separates, runPath_append _ _ _ (pathSegments_ne_nil _ _)]

theorem Led.behindSlashes (led : Led name) (plain : PlainPath scheme name) : behindSlashes name = name := by
  rw [Library.behindSlashes, plain.removeBreaks]
  obtain ⟨lead, rest, shape, long, letters⟩ := led
  cases lead with
  | nil => cases long
  | cons first lead =>
      have letter := letters first List.mem_cons_self
      have other : isSlash first = false := by
        rw [Bool.eq_false_iff]
        intro slash
        simp only [isSlash, Bool.or_eq_true, decide_eq_true_eq] at slash
        rcases slash with same | same
        · exact absurd (same ▸ letter) (by decide)
        · exact absurd (same ▸ letter) (by decide)
      rw [shape, List.cons_append, List.dropWhile_cons_of_neg (by simp [other])]

/-- Without a host the beginning of the text is taken for one, and a segment is gone. -/
theorem webPath_text_of_empty (special : scheme ∈ specialSchemes) (empty : Library.behindSlashes host = [])
    (led : Led name) : (UrlPath.segments (webPath scheme (host ++ '/' :: name))).text ≠ '/' :: name := by
  intro text
  rw [webPath, trimEnd_append_cons (by decide), behindSlashes_append_of_empty empty] at text
  split at text
  next =>
    obtain ⟨lead, rest, shape, long, _⟩ := led
    have none_ : name = [] := (List.cons.inj text).2.symm
    rw [shape, List.append_eq_nil_iff] at none_
    rw [none_.1] at long
    cases long
  next separator path shape =>
    have proper := proper_runPath (proper_nil scheme)
      fun _ member => @mem_pathSegments scheme path _ member
    have plain := PlainPath.of_text proper text
    have split := splitOn_of_text proper text
    rw [plain.trimEnd, led.behindSlashes plain] at shape
    have slash : isSlash separator = true := by
      have first := List.head?_dropWhile_not (fun char => !isSlash char) name
      rw [shape] at first
      simpa using first
    have separates : isPathSeparator scheme separator = true := by
      simp only [isSlash, Bool.or_eq_true, decide_eq_true_eq] at slash
      simp [isPathSeparator, slash, special]
    have whole := List.takeWhile_append_dropWhile (p := fun char => !isSlash char) (l := name)
    rw [shape] at whole
    have pieces := plain.pathSegments
    rw [split, ← whole, pathSegments_append_cons separates] at pieces
    have lengths := congrArg List.length pieces
    have shorter := length_runPath_le scheme [] (pathSegments scheme path)
    have front := List.length_pos_of_ne_nil
      (pathSegments_ne_nil scheme (name.takeWhile fun char => !isSlash char))
    simp only [List.length_append, List.length_nil] at lengths shorter
    omega

theorem webPath_text_iff (special : scheme ∈ specialSchemes) (led : Led name) :
    (UrlPath.segments (webPath scheme (host ++ '/' :: name))).text = '/' :: name ↔
      HostOnly scheme host ∧ PlainPath scheme name := by
  by_cases empty : behindSlashes host = []
  · refine iff_of_false (webPath_text_of_empty special empty led) fun found => ?_
    exact found.1.some_ empty
  · rw [webPath_append empty, runPath_text_iff led (proper_ownPath scheme host) fun plain => by
      rw [plain.trimEnd, plain.removeBreaks]]
    exact and_congr_left fun _ => ⟨fun noPath => ⟨empty, noPath⟩, HostOnly.noPath⟩

theorem webPath_plain (led : Led name) (only : HostOnly scheme host) (plain : PlainPath scheme name) :
    webPath scheme (host ++ '/' :: name) = name.splitOn '/' := by
  rw [webPath_append only.some_, only.noPath, plain.trimEnd]
  exact readPath_plain led plain

end Web

end RustNostr.Library
